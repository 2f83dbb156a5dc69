import TokenStream.Proofs.Priorities
import TokenStream.Proofs.Spans
import TokenStream.Proofs.TextEnds

/-!
# Kinds and what their tokens look like

The first rule that recognises something wins, and each rule takes as much as its form allows.  From
this the kind of a token says two things about its source: what the text of the token consists of,
and with what the source does not go on behind it.  A number is not followed by a digit, an integer
also not by a point with a digit behind it, a name not by a character of a word; and a character is
unknown only if none of the forms starts with it.

## Main definitions

* `IsNumeral`, `IsWord`, `IsQuotedChar`, `IsQuotedText` — the forms of texts.
* `IsWholeName` — a word that goes on as far as possible and does not start with a truth value.
* `IsUnknown` — a character with which nothing starts.
* `Token.Kind.Fits` — **a kind fits characters with others behind them**.

## Main results

* `Rule.fits_of_firstMatch?` — the kind of the first match fits it, given what comes behind it.
* `Rule.isUnknown_of_firstMatch?` — a character that no rule recognises is one with which nothing
  starts.
* `scan_token_fits` — **the kind of a token fits its text and the rest of the source**.
-/

namespace TokenStream

/-! ### Forms -/

/-- A numeral: decimal digits, at least one. -/
def IsNumeral (chars : List Char) : Prop := chars ≠ [] ∧ ∀ c ∈ chars, isDecimalDigit c = true

/-- A word: an ASCII letter or the underscore, and behind it any of these and of the ASCII
digits. -/
def IsWord (chars : List Char) : Prop :=
  ∃ first rest, chars = first :: rest ∧ Lexeme.isWordStart first = true ∧
    ∀ c ∈ rest, Lexeme.isWordPart c = true

/-- A text starts with a truth value, whatever comes behind it. -/
def StartsWithTruth (text : List Char) : Prop := "true".toList <+: text ∨ "false".toList <+: text

/-- A name, reserved or not: a word that does not start with a truth value and does not go on
behind its end. -/
structure IsWholeName (chars ahead : List Char) : Prop where
  /-- It is a word. -/
  word : IsWord chars
  /-- It does not start with a truth value. -/
  untrue : ¬ StartsWithTruth chars
  /-- No character of a word comes next. -/
  ends : ahead.head?.any Lexeme.isWordPart = false

/-- A character in single quotes: any but the quote, or any but a line feed after a backslash. -/
def IsQuotedChar (chars : List Char) : Prop :=
  (∃ c, c ≠ '\x27' ∧ chars = ['\x27', c, '\x27']) ∨
    ∃ c, c ≠ '\n' ∧ chars = ['\x27', '\\', c, '\x27']

/-- A text in double quotes, closed at the first quote that is not escaped: every quote inside of it
is escaped, and the one at its end also, but only if no quote is left in what comes behind. -/
def IsQuotedText (chars ahead : List Char) : Prop :=
  ∃ body, chars = '\x22' :: (body ++ ['\x22']) ∧
    (∀ earlier later, body = earlier ++ '\x22' :: later →
      trailingBackslashes earlier % 2 = 1) ∧
    (trailingBackslashes body % 2 = 1 → '\x22' ∉ ahead)

/-- A character with which nothing starts, given what comes behind it. -/
structure IsUnknown (c : Char) (ahead : List Char) : Prop where
  /-- It is not blank. -/
  notBlank : isBlank c = false
  /-- It ends no line. -/
  notLineBreak : c ≠ '\r' ∧ c ≠ '\n'
  /-- No number starts with it. -/
  notDigit : isDecimalDigit c = false
  /-- No word starts with it. -/
  notLetter : Lexeme.isWordStart c = false
  /-- A double quote is the last of the source. -/
  doubleQuote : c = '\x22' → '\x22' ∉ ahead
  /-- A single quote starts no character in quotes. -/
  singleQuote : c = '\x27' → ∀ chars, IsQuotedChar chars → ¬ chars <+: '\x27' :: ahead

/-- **A kind fits characters with others behind them.**  It says what the characters are, and with
what the text does not go on. -/
def Token.Kind.Fits (chars ahead : List Char) : Token.Kind → Prop
  | .float =>
    (∃ whole fraction, IsNumeral whole ∧ IsNumeral fraction ∧ chars = whole ++ '.' :: fraction) ∧
      ahead.head?.any isDecimalDigit = false
  | .integer =>
    IsNumeral chars ∧ ahead.head?.any isDecimalDigit = false ∧
      ¬ (ahead[0]? = some '.' ∧ ahead[1]?.any isDecimalDigit = true)
  | .boolean => chars = "true".toList ∨ chars = "false".toList
  | .identifier => IsWholeName chars ahead ∧ TokenStream.isKeyword (String.ofList chars) = false
  | .keyword => IsWholeName chars ahead ∧ TokenStream.isKeyword (String.ofList chars) = true
  | .string => IsQuotedText chars ahead
  | .char =>
    IsQuotedChar chars ∧ (chars = ['\x27', '\\', '\x27'] → ahead.head? ≠ some '\x27')
  | .endOfLine => chars = ['\n']
  | .unknown => ∃ c, chars = [c] ∧ IsUnknown c ahead

namespace Lexeme

variable {text chars ahead : List Char}

/-! ### What a rule recognises, and what comes behind it -/

/-- Behind a run of characters that is as long as possible comes no other of them. -/
theorem head?_any_of_takeWhile {p : Char → Bool} (h : (chars ++ ahead).takeWhile p = chars) :
    ahead.head?.any p = false := by
  cases ahead with
  | nil => rfl
  | cons c rest =>
    rw [List.head?_cons, Option.any_some, ← Bool.not_eq_true]
    intro hc
    have hall : ∀ d ∈ chars, p d = true := by
      intro d hd
      rw [← h] at hd
      exact List.all_eq_true.mp List.all_takeWhile d hd
    -- The run would go on with this character.
    rw [List.takeWhile_append_of_pos hall, List.takeWhile_cons_of_pos hc] at h
    have hlength := congrArg List.length h
    simp at hlength

theorem isNumeral_of_integer? (h : integer? text = some chars) : IsNumeral chars :=
  ⟨integer?_ne_nil h, fun _ hc => of_mem_integer? h hc⟩

theorem head?_of_integer? (h : integer? (chars ++ ahead) = some chars) :
    ahead.head?.any isDecimalDigit = false :=
  head?_any_of_takeWhile (integer?_eq_some_iff.mp h).1

theorem fits_float (h : float? (chars ++ ahead) = some chars) :
    Token.Kind.float.Fits chars ahead := by
  obtain ⟨whole, rest, fraction, htext, hwhole, hfraction, rfl⟩ := exists_point_of_float? h
  refine ⟨⟨whole, fraction, isNumeral_of_integer? hwhole, isNumeral_of_integer? hfraction, rfl⟩, ?_⟩
  rw [List.append_assoc, List.cons_append, List.append_cancel_left_eq] at htext
  rw [← (List.cons.inj htext).2] at hfraction
  exact head?_of_integer? hfraction

/-- An integer is not followed by a point with a digit behind it, or it would be a float. -/
theorem fits_integer (h : integer? (chars ++ ahead) = some chars)
    (hfloat : float? (chars ++ ahead) = none) : Token.Kind.integer.Fits chars ahead := by
  refine ⟨isNumeral_of_integer? h, head?_of_integer? h, ?_⟩
  rintro ⟨hpoint, hdigit⟩
  rw [← List.head?_eq_getElem?] at hpoint
  obtain ⟨rest, rfl⟩ := List.head?_eq_some_iff.mp hpoint
  rw [List.getElem?_cons_succ, ← List.head?_eq_getElem?] at hdigit
  rw [float?_append_point (integer?_self h), Option.map_eq_none_iff] at hfloat
  cases rest with
  | nil => contradiction
  | cons d rest =>
    rw [List.head?_cons, Option.any_some] at hdigit
    rw [integer?, List.takeWhile_cons_of_pos hdigit] at hfloat
    contradiction

theorem isWord_of_word? (h : word? text = some chars) : IsWord chars := by
  cases text with
  | nil => contradiction
  | cons c rest =>
    rw [word?] at h
    split at h
    · next hstart =>
      cases h
      exact ⟨c, _, rfl, hstart, fun d hd => List.all_eq_true.mp List.all_takeWhile d hd⟩
    · contradiction

/-- A word is a name unless a truth value is tried first. -/
theorem isWholeName_of_word? (h : word? (chars ++ ahead) = some chars)
    (hboolean : boolean? (chars ++ ahead) = none) : IsWholeName chars ahead := by
  have hword : IsWord chars := isWord_of_word? h
  refine ⟨hword, ?_, ?_⟩
  · intro htruth
    have hsome : ∃ lexeme, boolean? (chars ++ ahead) = some lexeme := by
      rcases htruth with htrue | hfalse
      · exact ⟨_, boolean?_eq_some_iff.mpr
          ⟨.inl rfl, htrue.trans (List.prefix_append chars ahead)⟩⟩
      · exact ⟨_, boolean?_eq_some_iff.mpr
          ⟨.inr rfl, hfalse.trans (List.prefix_append chars ahead)⟩⟩
    obtain ⟨lexeme, hlexeme⟩ := hsome
    rw [hboolean] at hlexeme
    contradiction
  · obtain ⟨first, rest, rfl, hstart, -⟩ := hword
    rw [List.cons_append, word?, if_pos hstart] at h
    exact head?_any_of_takeWhile (List.cons.inj (Option.some.inj h)).2

/-- A text in quotes closes at the first quote that is not escaped, or at the last one. -/
theorem isQuotedText_of_string? (h : string? (chars ++ ahead) = some chars) :
    IsQuotedText chars ahead := by
  obtain ⟨rest, htext, -⟩ := isSome_string?_iff.mp (Option.isSome_of_eq_some h)
  rw [htext, string?] at h
  obtain ⟨found, hfound, rfl⟩ := Option.map_eq_some_iff.mp h
  obtain rfl : rest = found ++ ahead := (List.cons.inj htext).2.symm
  rcases Option.or_eq_some_iff.mp hfound with hfirst | ⟨hopen, hlast⟩
  · obtain ⟨body, after, hsplit, rfl, heven, hleast⟩ := exists_split_of_toFirstQuote? hfirst
    refine ⟨body, rfl, ?_, fun hodd => by omega⟩
    intro earlier later hbody
    -- A quote inside that is not escaped would have been the first one.
    have hparity : ¬ trailingBackslashes earlier % 2 = 0 := by
      intro heven'
      have hle := hleast earlier (later ++ '\x22' :: after)
        (by rw [hsplit, hbody, List.append_assoc, List.cons_append]) heven'
      have hlength := congrArg List.length hbody
      rw [List.length_append, List.length_cons] at hlength
      omega
    omega
  · obtain ⟨body, after, hsplit, rfl, hafter⟩ := exists_split_of_toLastQuote? hlast
    obtain rfl : after = ahead := by
      rw [List.append_assoc, List.append_cancel_left_eq, List.singleton_append] at hsplit
      exact (List.cons.inj hsplit).2.symm
    refine ⟨body, rfl, ?_, fun _ => hafter⟩
    intro earlier later hbody
    have hparity : ¬ trailingBackslashes earlier % 2 = 0 := by
      intro heven
      have hinside : body ++ ['\x22'] ++ after =
          earlier ++ '\x22' :: (later ++ '\x22' :: after) := by
        rw [hbody]
        simp
      have hsome := isSome_toFirstQuote? hinside heven
      rw [hopen] at hsome
      contradiction
    omega

theorem isQuotedChar_of_character? (h : character? text = some chars) : IsQuotedChar chars := by
  rcases character?_eq_some_iff.mp h with ⟨c, hc, hform, -⟩ | ⟨c, hc, hform, -, -⟩
  · exact .inr ⟨c, hc, hform⟩
  · exact .inl ⟨c, hc, hform⟩

/-- A backslash stands alone between single quotes only where no third quote follows. -/
theorem fits_char (h : character? (chars ++ ahead) = some chars) :
    Token.Kind.char.Fits chars ahead := by
  refine ⟨isQuotedChar_of_character? h, ?_⟩
  rintro rfl hthird
  rcases character?_eq_some_iff.mp h with ⟨c, -, hform, -⟩ | ⟨c, -, hform, -, hother⟩
  · simp at hform
  · have hc : c = '\\' := by simpa using hform.symm
    apply hother
    refine ⟨hc, ?_⟩
    rw [← hthird, List.head?_eq_getElem?]
    rfl

/-- Where a character in quotes stands, one is recognised. -/
theorem isSome_character? (hchars : IsQuotedChar chars) (hstarts : chars <+: text) :
    (character? text).isSome := by
  obtain ⟨rest, rfl⟩ := hstarts
  apply isSome_character?_append
  have hself : character? chars = some chars := by
    rcases hchars with ⟨c, hc, rfl⟩ | ⟨c, hc, rfl⟩
    · refine character?_eq_some_iff.mpr (.inr ⟨c, hc, rfl, List.prefix_rfl, ?_⟩)
      rintro ⟨-, hthird⟩
      contradiction
    · exact character?_eq_some_iff.mpr (.inl ⟨c, hc, rfl, List.prefix_rfl⟩)
  exact Option.isSome_of_eq_some hself

end Lexeme

/-! ### First matches -/

namespace Rule

variable {rule other : Rule} {text chars ahead : List Char}

/-- A rule that is tried before the first match recognises nothing. -/
theorem lexeme?_eq_none_of_not_isBefore {rules : List Rule}
    (h : firstMatch? rules text = some (rule, chars)) (hne : other ≠ rule)
    (hbefore : ¬ IsBefore rules rule other) : other.lexeme? text = none := by
  cases hother : other.lexeme? text with
  | none => rfl
  | some lexeme =>
    exact absurd (isBefore_of_firstMatch? h hne (Option.isSome_of_eq_some hother)) hbefore

/-- **The kind of the first match fits it, given what comes behind it.** -/
theorem fits_of_firstMatch? (h : firstMatch? table (chars ++ ahead) = some (rule, chars)) :
    (rule.classify chars).Fits chars ahead := by
  have hlexeme : rule.lexeme? (chars ++ ahead) = some chars := (mem_of_firstMatch? h).2
  cases rule with
  | float => exact Lexeme.fits_float hlexeme
  | integer =>
    have hfloat : float.lexeme? (chars ++ ahead) = none :=
      lexeme?_eq_none_of_not_isBefore h (by decide) (by decide)
    exact Lexeme.fits_integer hlexeme hfloat
  | boolean => exact (Lexeme.boolean?_eq_some_iff.mp hlexeme).1
  | string => exact Lexeme.isQuotedText_of_string? hlexeme
  | char => exact Lexeme.fits_char hlexeme
  | identifier =>
    have hboolean : boolean.lexeme? (chars ++ ahead) = none :=
      lexeme?_eq_none_of_not_isBefore h (by decide) (by decide)
    have hname : IsWholeName chars ahead := Lexeme.isWholeName_of_word? hlexeme hboolean
    unfold classify
    split
    · next hkeyword => exact ⟨hname, hkeyword.2⟩
    · next hkeyword =>
      refine ⟨hname, ?_⟩
      rw [← Bool.not_eq_true]
      exact fun hreserved => hkeyword ⟨rfl, hreserved⟩

/-- **A character that no rule recognises is one with which nothing starts.** -/
theorem isUnknown_of_firstMatch? {c : Char} {rest : List Char}
    (hending : LineEnding.atHead? (c :: rest) = none) (hblank : isBlank c = false)
    (h : firstMatch? table (c :: rest) = none) : IsUnknown c rest := by
  have hnone : ∀ rule : Rule, rule.lexeme? (c :: rest) = none := by
    intro rule
    exact lexeme?_eq_none_of_firstMatch? h (by cases rule <;> decide)
  refine ⟨hblank, LineEnding.ne_of_atHead?_eq_none hending, ?_, ?_, ?_, ?_⟩
  · rw [← Bool.not_eq_true]
    intro hdigit
    have hinteger : Lexeme.integer? (c :: rest) = none := hnone .integer
    rw [Lexeme.integer?, List.takeWhile_cons_of_pos hdigit] at hinteger
    contradiction
  · rw [← Bool.not_eq_true]
    intro hstart
    have hword : Lexeme.word? (c :: rest) = none := hnone .identifier
    rw [Lexeme.word?, if_pos hstart] at hword
    contradiction
  · rintro rfl hquote
    have hstring : Lexeme.string? ('\x22' :: rest) = none := hnone .string
    have hsome := Lexeme.isSome_string?_iff.mpr ⟨rest, rfl, hquote⟩
    rw [hstring] at hsome
    contradiction
  · rintro rfl chars hchars hstarts
    have hchar : Lexeme.character? ('\x27' :: rest) = none := hnone .char
    have hsome := Lexeme.isSome_character? hchars hstarts
    rw [hchar] at hsome
    contradiction

end Rule

/-! ### Tokens -/

section Places

variable {text : List Char} {passed ahead : List Piece} {piece : Piece} {token : Token}

/-- The kind of a token fits its text and the characters of the pieces ahead. -/
theorem fits_of_split (h : pieces Rule.table none text = passed ++ piece :: ahead)
    (htoken : piece.token? (widthOf passed) = some token) :
    token.kind.Fits token.text.toList (ahead.flatMap Piece.chars) := by
  obtain ⟨c, rest, -, hheads, hrest⟩ := exists_heads_of_split h
  cases hheads with
  | lineEnd ending =>
    cases hcontinued : (passed.flatMap Piece.chars).getLast?.or none == some '\\' with
    | true => rw [hcontinued] at htoken; contradiction
    | false =>
      rw [hcontinued] at htoken
      cases htoken
      show "\n".toList = ['\n']
      decide
  | blank => contradiction
  | lexeme rule chars _ _ hmatch =>
    cases htoken
    rw [hrest] at hmatch
    rw [String.toList_ofList]
    exact Rule.fits_of_firstMatch? hmatch
  | unknown hending hblank hmatch =>
    cases htoken
    have hunknown : IsUnknown c rest := Rule.isUnknown_of_firstMatch? hending hblank hmatch
    rw [(List.cons.inj hrest).2] at hunknown
    exact ⟨c, String.toList_ofList, hunknown⟩

/-- The pieces ahead of a token are what the source goes on with behind its span. -/
theorem drop_stopIn_of_split (h : pieces Rule.table none text = passed ++ piece :: ahead)
    (htoken : piece.token? (widthOf passed) = some token) :
    text.drop (token.stopIn text) = ahead.flatMap Piece.chars := by
  obtain ⟨-, -, hstop⟩ := token_of_split h htoken
  obtain ⟨htext, -⟩ := pieces_split h
  have hlength : ((passed ++ [piece]).flatMap Piece.chars).length = token.stopIn text := by
    rw [length_flatMap_chars, widthOf_append, widthOf_cons, widthOf_nil, Nat.add_zero, hstop]
  have hcut : text = (passed ++ [piece]).flatMap Piece.chars ++ ahead.flatMap Piece.chars := by
    rw [htext, ← List.flatMap_append, ← List.flatMap_append, List.append_cons]
  rw [← hlength, hcut]
  exact List.drop_left

end Places

/-- **The kind of a token fits its text and the rest of the source**, that is, what comes behind the
span of the token. -/
theorem scan_token_fits {source : String} {sourceFile : Option String} {token : Token}
    (h : token ∈ (scan source sourceFile Settings.default).tokens) :
    token.kind.Fits token.text.toList
      (source.toList.drop (token.stopIn source.toList)) := by
  obtain ⟨passed, piece, ahead, hsplit, htoken⟩ := mem_scan_default_iff.mp h
  rw [drop_stopIn_of_split hsplit htoken]
  exact fits_of_split hsplit htoken

/-- An integer before a point is one where no digit comes behind the point. -/
theorem scan_integer_before_point :
    (⟨.integer, "12", 4⟩ : Token) ∈ (scan "3.5 12.x" none Settings.default).tokens ∧
      Token.Kind.integer.Fits ['1', '2'] ['.', 'x'] := by
  have hmem : (⟨.integer, "12", 4⟩ : Token) ∈
      (scan "3.5 12.x" none Settings.default).tokens := by decide +kernel
  exact ⟨hmem, scan_token_fits hmem⟩

end TokenStream
