import TokenStream.Proofs.MaximalMunch

/-!
# How words split

A truth value is recognised without regard to what comes behind it, so a word that starts with one
falls into parts, and what is left can do so again: `true1falsey` is four tokens.  The characters of
a word leave little choice for these parts.  They are truth values, integers and names; a name takes
all that is left, and an integer takes all digits, so that only a truth value can come before it.

## Main definitions

* `Token.Kind.IsName`, `Token.Kind.IsPartOfWord` — the kinds of names, and of the parts of a word.
* `SplitsWord` — tokens into which a word falls.

## Main results

* `eq_lexeme_of_split` — **the pieces of a word are lexemes of these kinds**.
* `splitsWord_tokensOf` — the tokens of the pieces of a word are the parts of the word.
* `scan_word_splits` — **a scan of a word splits it in this way, strict or not, and does not fail if
  the length is within the limit**.
-/

namespace TokenStream

/-- The kinds of names, reserved ones and others. -/
def Token.Kind.IsName (kind : Token.Kind) : Prop := kind = .identifier ∨ kind = .keyword

/-- The kinds of the parts of a word. -/
def Token.Kind.IsPartOfWord (kind : Token.Kind) : Prop :=
  kind = .boolean ∨ kind = .integer ∨ kind.IsName

/-- Tokens into which a word falls. -/
structure SplitsWord (word : List Char) (tokens : List Token) : Prop where
  /-- Put together, they are the word. -/
  whole : tokens.flatMap (·.text.toList) = word
  /-- Each starts where those before it end. -/
  contiguous : ∀ before token behind, tokens = before ++ token :: behind →
    token.offset = (before.flatMap (·.text.toList)).length
  /-- They are truth values, integers and names. -/
  kinds : ∀ token ∈ tokens, token.kind.IsPartOfWord
  /-- Behind a name there is nothing. -/
  nameIsLast : ∀ before token behind, tokens = before ++ token :: behind → token.kind.IsName →
    behind = []
  /-- Directly before an integer there is a truth value. -/
  booleanBefore : ∀ before token behind, tokens = before ++ token :: behind →
    token.kind = .integer → ∃ previous, before.getLast? = some previous ∧ previous.kind = .boolean
  /-- The word is one name unless it starts with a truth value. -/
  single : (∃ token, tokens = [token] ∧ token.kind.IsName) ↔ ¬ StartsWithTruth word

/-! ### Characters of words -/

namespace Lexeme

variable {c : Char}

/-- The characters of words are no spaces. -/
theorem isBlank_of_isWordPart (h : isWordPart c = true) : isBlank c = false := by
  have hbounds : 48 ≤ c.toNat ∧ c.toNat ≤ 122 := by
    rcases isWordStart_or_digit_of_isWordPart h with hstart | hdigit
    · obtain ⟨hlo, hhi⟩ := toNat_bounds_of_isWordStart hstart
      omega
    · omega
  have hspace : isSpace c = false := CharSet.contains_eq_false (by decide) hbounds
  rw [isBlank, hspace, Bool.false_and]

/-- A character with which a word goes on starts a word or a number. -/
theorem isWordStart_or_isDecimalDigit (h : isWordPart c = true) :
    isWordStart c = true ∨ isDecimalDigit c = true := by
  refine (isWordStart_or_digit_of_isWordPart h).imp_right fun hdigit => ?_
  exact CharSet.contains_iff.mpr ⟨(0x30, 0x39), by decide, hdigit⟩

end Lexeme

/-- Characters of words that fit a kind are a part of a word. -/
theorem Token.Kind.Fits.isPartOfWord {kind : Token.Kind} {chars ahead : List Char}
    (h : kind.Fits chars ahead) (hall : ∀ c ∈ chars, Lexeme.isWordPart c = true) :
    kind.IsPartOfWord := by
  cases kind with
  | boolean => exact .inl rfl
  | integer => exact .inr (.inl rfl)
  | identifier => exact .inr (.inr (.inl rfl))
  | keyword => exact .inr (.inr (.inr rfl))
  | float =>
    obtain ⟨⟨whole, fraction, -, -, rfl⟩, -⟩ := h
    exact absurd (hall '.' (by simp)) (by decide)
  | string =>
    obtain ⟨body, rfl, -, -⟩ := h
    exact absurd (hall '\x22' (by simp)) (by decide)
  | char =>
    rcases h.1 with ⟨c, -, rfl⟩ | ⟨c, -, rfl⟩
    · exact absurd (hall '\x27' (by simp)) (by decide)
    · exact absurd (hall '\x27' (by simp)) (by decide)
  | endOfLine =>
    obtain rfl : chars = ['\n'] := h
    exact absurd (hall '\n' (by simp)) (by decide)
  | unknown =>
    obtain ⟨c, rfl, hunknown⟩ := h
    rcases Lexeme.isWordStart_or_isDecimalDigit (hall c (by simp)) with hstart | hdigit
    · exact absurd hstart (by simp [hunknown.notLetter])
    · exact absurd hdigit (by simp [hunknown.notDigit])

/-- What fits the kind of a name is a whole name. -/
theorem Token.Kind.Fits.isWholeName {kind : Token.Kind} {chars ahead : List Char}
    (h : kind.Fits chars ahead) (hname : kind.IsName) : IsWholeName chars ahead := by
  rcases hname with rfl | rfl
  · exact h.1
  · exact h.1

/-- A word consists of characters of words. -/
theorem IsWord.isWordPart {word : List Char} (h : IsWord word) :
    ∀ c ∈ word, Lexeme.isWordPart c = true := by
  obtain ⟨first, rest, rfl, hstart, hrest⟩ := h
  exact List.forall_mem_cons.mpr ⟨Lexeme.isWordPart_of_isWordStart hstart, hrest⟩

/-! ### Pieces of words -/

section Places

variable {text : List Char} {passed ahead : List Piece} {piece : Piece}

/-- **The pieces of a word are lexemes, and they are truth values, integers and names.** -/
theorem eq_lexeme_of_split (hall : ∀ c ∈ text, Lexeme.isWordPart c = true)
    (h : pieces Rule.table none text = passed ++ piece :: ahead) :
    ∃ kind chars, piece = .lexeme kind chars ∧ kind.IsPartOfWord ∧
      kind.Fits chars (ahead.flatMap Piece.chars) := by
  obtain ⟨htext, -⟩ := pieces_split h
  have hchars : ∀ c ∈ piece.chars, Lexeme.isWordPart c = true := by
    intro c hc
    apply hall
    rw [htext, List.flatMap_cons]
    simp [hc]
  have hpart : ∀ token, piece.token? (widthOf passed) = some token →
      token.text.toList = piece.chars → token.kind.IsPartOfWord ∧
        token.kind.Fits piece.chars (ahead.flatMap Piece.chars) := by
    intro token htoken hsame
    have hfits := fits_of_split h htoken
    rw [hsame] at hfits
    exact ⟨hfits.isPartOfWord hchars, hfits⟩
  cases piece with
  | lineEnd ending continued =>
    -- The characters of a line ending are none of words.
    cases ending with
    | crlf => exact absurd (hchars '\r' (by simp [Piece.chars, LineEnding.chars])) (by decide)
    | cr => exact absurd (hchars '\r' (by simp [Piece.chars, LineEnding.chars])) (by decide)
    | lf => exact absurd (hchars '\n' (by simp [Piece.chars, LineEnding.chars])) (by decide)
  | blank c =>
    obtain ⟨_, _, -, hheads, -⟩ := exists_heads_of_split h
    cases hheads with
    | blank _ hblank =>
      rw [Lexeme.isBlank_of_isWordPart (hchars _ (List.mem_singleton.mpr rfl))] at hblank
      contradiction
  | lexeme kind chars => exact ⟨kind, chars, rfl, hpart _ rfl String.toList_ofList⟩
  | unknown c =>
    obtain ⟨hkind, -⟩ := hpart _ rfl String.toList_ofList
    rcases hkind with hkind | hkind | hkind | hkind <;> contradiction

/-- Ahead of a name in a word there is nothing. -/
theorem ahead_eq_nil_of_isWholeName {chars : List Char}
    (hall : ∀ c ∈ text, Lexeme.isWordPart c = true)
    (h : pieces Rule.table none text = passed ++ ahead)
    (hname : IsWholeName chars (ahead.flatMap Piece.chars)) : ahead = [] := by
  obtain ⟨htext, hahead⟩ := pieces_split h
  have hnil : ahead.flatMap Piece.chars = [] := by
    have hends := hname.ends
    cases hrest : ahead.flatMap Piece.chars with
    | nil => rfl
    | cons c rest =>
      have hc : Lexeme.isWordPart c = true := by
        apply hall
        rw [htext, hrest]
        simp
      rw [hrest, List.head?_cons, Option.any_some, hc] at hends
      contradiction
  rw [hnil, pieces_nil] at hahead
  exact hahead.symm

/-- Before an integer in a word there is a truth value: a word does not start with a digit, an
integer takes all digits, and a name takes whatever is left. -/
theorem exists_boolean_of_integer {chars : List Char} (hword : IsWord text)
    (hall : ∀ c ∈ text, Lexeme.isWordPart c = true)
    (h : pieces Rule.table none text = passed ++ .lexeme .integer chars :: ahead)
    (hnumeral : IsNumeral chars) :
    ∃ before found, passed = before ++ [.lexeme .boolean found] := by
  obtain ⟨htext, -⟩ := pieces_split h
  obtain ⟨hne, hdigits⟩ := hnumeral
  obtain ⟨d, digits, rfl⟩ := List.exists_cons_of_ne_nil hne
  have hdigit : isDecimalDigit d = true := hdigits d (by simp)
  rcases List.eq_nil_or_concat passed with rfl | ⟨before, piece, rfl⟩
  · obtain ⟨first, rest, rfl, hstart, -⟩ := hword
    obtain rfl : first = d := (List.cons.inj htext).1
    rw [Rule.isDecimalDigit_of_isWordStart hstart] at hdigit
    contradiction
  · rw [List.concat_eq_append, List.append_assoc, List.singleton_append] at h
    obtain ⟨kind, found, rfl, hkind, hfits⟩ := eq_lexeme_of_split hall h
    have hhead : ((Piece.lexeme .integer (d :: digits) :: ahead).flatMap Piece.chars).head? =
        some d := rfl
    rcases hkind with rfl | rfl | hname
    · exact ⟨before, found, List.concat_eq_append⟩
    · obtain ⟨-, hends, -⟩ := hfits
      rw [hhead, Option.any_some, hdigit] at hends
      contradiction
    · have hwhole := hfits.isWholeName hname
      have hnext : pieces Rule.table none text =
          (before ++ [.lexeme kind found]) ++ .lexeme .integer (d :: digits) :: ahead := by
        rw [h, List.append_assoc, List.singleton_append]
      have hnil := ahead_eq_nil_of_isWholeName hall hnext hwhole
      contradiction

end Places

/-! ### Tokens of words -/

/-- The texts of lexemes in a row are their characters. -/
theorem flatMap_text_tokensOf {ps : List Piece} (offset : Nat)
    (h : ∀ piece ∈ ps, ∃ kind chars, piece = .lexeme kind chars) :
    (tokensOf offset ps).flatMap (·.text.toList) = ps.flatMap Piece.chars := by
  induction ps generalizing offset with
  | nil => rfl
  | cons piece rest ih =>
    rw [List.forall_mem_cons] at h
    obtain ⟨⟨kind, chars, rfl⟩, hrest⟩ := h
    rw [tokensOf_cons, List.flatMap_append, ih _ hrest, List.flatMap_cons]
    simp [Piece.token?, Piece.chars]

section Tokens

variable {word : List Char} (hall : ∀ c ∈ word, Lexeme.isWordPart c = true)

include hall

/-- The texts of the tokens that a scan of a word has passed are the characters passed. -/
theorem flatMap_text_of_split {passed ahead : List Piece}
    (h : pieces Rule.table none word = passed ++ ahead) :
    (tokensOf 0 passed).flatMap (·.text.toList) = passed.flatMap Piece.chars := by
  apply flatMap_text_tokensOf
  intro piece hpiece
  obtain ⟨before, after, rfl⟩ := List.append_of_mem hpiece
  rw [List.append_assoc, List.cons_append] at h
  obtain ⟨kind, chars, hform, -⟩ := eq_lexeme_of_split hall h
  exact ⟨kind, chars, hform⟩

/-- Where a token divides the others, a lexeme divides the pieces of a word. -/
theorem exists_lexeme_of_tokens {before behind : List Token} {token : Token}
    (h : tokensOf 0 (pieces Rule.table none word) = before ++ token :: behind) :
    ∃ passed chars ahead,
      pieces Rule.table none word = passed ++ .lexeme token.kind chars :: ahead ∧
        tokensOf 0 passed = before ∧ token = ⟨token.kind, String.ofList chars, widthOf passed⟩ ∧
        tokensOf (widthOf passed + chars.length) ahead = behind ∧
        token.kind.IsPartOfWord ∧ token.kind.Fits chars (ahead.flatMap Piece.chars) := by
  obtain ⟨passed, piece, ahead, hpieces, hpiece, hbefore, hbehind⟩ := exists_split_of_tokensOf h
  obtain ⟨kind, chars, rfl, hkind, hfits⟩ := eq_lexeme_of_split hall hpieces
  cases hpiece
  exact ⟨passed, chars, ahead, hpieces, hbefore, rfl, hbehind, hkind, hfits⟩

/-- A word is one name unless it starts with a truth value. -/
theorem single_name_iff (hword : IsWord word) :
    (∃ token, tokensOf 0 (pieces Rule.table none word) = [token] ∧ token.kind.IsName) ↔
      ¬ StartsWithTruth word := by
  constructor
  · rintro ⟨token, htokens, hname⟩
    have hsplit : tokensOf 0 (pieces Rule.table none word) = [] ++ token :: [] := htokens
    obtain ⟨passed, chars, ahead, -, -, htoken, -, -, hfits⟩ := exists_lexeme_of_tokens hall hsplit
    have hwhole := flatMap_text_of_split hall (List.append_nil _).symm
    rw [flatMap_chars_pieces, htokens, List.flatMap_singleton, htoken, String.toList_ofList]
      at hwhole
    rw [← hwhole]
    exact (hfits.isWholeName hname).untrue
  · intro huntrue
    cases hpieces : pieces Rule.table none word with
    | nil =>
      -- A word has a first character, and so a first piece.
      obtain ⟨first, rest, rfl, -⟩ := hword
      have hchars := flatMap_chars_pieces Rule.table none (first :: rest)
      rw [hpieces] at hchars
      contradiction
    | cons piece ahead =>
      have hsplit : pieces Rule.table none word = [] ++ piece :: ahead := hpieces
      obtain ⟨kind, chars, rfl, hkind, hfits⟩ := eq_lexeme_of_split hall hsplit
      obtain ⟨htext, -⟩ := pieces_split hsplit
      rcases hkind with rfl | rfl | hname
      · have hprefix : chars <+: word := ⟨_, htext.symm⟩
        rcases hfits with rfl | rfl
        · exact absurd (.inl hprefix) huntrue
        · exact absurd (.inr hprefix) huntrue
      · obtain ⟨before, found, hnil⟩ := exists_boolean_of_integer hword hall hsplit hfits.1
        simp at hnil
      · have hnext : pieces Rule.table none word = [.lexeme kind chars] ++ ahead := hpieces
        obtain rfl := ahead_eq_nil_of_isWholeName hall hnext (hfits.isWholeName hname)
        exact ⟨_, rfl, hname⟩

end Tokens

/-- **The tokens of the pieces of a word are the parts of the word.** -/
theorem splitsWord_tokensOf {word : List Char} (hword : IsWord word) :
    SplitsWord word (tokensOf 0 (pieces Rule.table none word)) := by
  have hall : ∀ c ∈ word, Lexeme.isWordPart c = true := hword.isWordPart
  constructor
  case whole => rw [flatMap_text_of_split hall (List.append_nil _).symm, flatMap_chars_pieces]
  case contiguous =>
    intro before token behind htokens
    obtain ⟨passed, chars, ahead, hpieces, rfl, htoken, -⟩ := exists_lexeme_of_tokens hall htokens
    rw [htoken, flatMap_text_of_split hall hpieces, length_flatMap_chars]
  case kinds =>
    intro token htoken
    obtain ⟨before, behind, htokens⟩ := List.append_of_mem htoken
    obtain ⟨-, -, -, -, -, -, -, hkind, -⟩ := exists_lexeme_of_tokens hall htokens
    exact hkind
  case nameIsLast =>
    intro before token behind htokens hname
    obtain ⟨passed, chars, ahead, hpieces, -, -, hbehind, -, hfits⟩ :=
      exists_lexeme_of_tokens hall htokens
    have hnext : pieces Rule.table none word =
        (passed ++ [.lexeme token.kind chars]) ++ ahead := by
      rw [hpieces, List.append_cons]
    rw [ahead_eq_nil_of_isWholeName hall hnext (hfits.isWholeName hname)] at hbehind
    exact hbehind.symm
  case booleanBefore =>
    intro before token behind htokens hinteger
    obtain ⟨passed, chars, ahead, hpieces, rfl, -, -, -, hfits⟩ :=
      exists_lexeme_of_tokens hall htokens
    rw [hinteger] at hpieces hfits
    obtain ⟨earlier, found, rfl⟩ := exists_boolean_of_integer hword hall hpieces hfits.1
    refine ⟨⟨.boolean, String.ofList found, widthOf earlier⟩, ?_, rfl⟩
    rw [tokensOf_append, List.getLast?_append, Nat.zero_add]
    rfl
  case single => exact single_name_iff hall hword

/-- **A scan of a word splits it into its parts, and a strict scan does the same.**  Whatever the
settings, a scan of a word whose length they allow does not fail and yields these tokens. -/
theorem scan_word_splits {word : String} (hword : IsWord word.toList)
    (sourceFile : Option String) :
    let split := (scan word sourceFile Settings.default).tokens
    SplitsWord word.toList split ∧
      ∀ settings : Settings, settings.checkLength word.length = .within →
        (scan word sourceFile settings).tokens = split ∧
          (scan word sourceFile settings).stopped = none := by
  intro split
  refine ⟨?_, ?_⟩
  · rw [show split = _ from scan_default_tokens word sourceFile]
    exact splitsWord_tokensOf hword
  · intro settings hcheck
    apply scan_of_known sourceFile hcheck
    intro piece hpiece c hunknown
    obtain ⟨passed, ahead, hpieces⟩ := List.append_of_mem hpiece
    obtain ⟨kind, chars, hform, -⟩ := eq_lexeme_of_split hword.isWordPart hpieces
    rw [hunknown] at hform
    contradiction

/-- A word that splits at each truth value in it: the digits behind the first one are a number, and
what is left behind the second one is a name. -/
theorem scan_word_with_two_truths :
    SplitsWord "true1falsey".toList (scan "true1falsey" none Settings.default).tokens ∧
      (scan "true1falsey" none (Settings.of true none)).tokens =
        [⟨.boolean, "true", 0⟩, ⟨.integer, "1", 4⟩, ⟨.boolean, "false", 5⟩,
          ⟨.identifier, "y", 10⟩] ∧
      (scan "true1falsey" none (Settings.of true none)).stopped = none := by
  have hword : IsWord "true1falsey".toList :=
    ⟨'t', "rue1falsey".toList, by decide, by decide, List.all_eq_true.mp (by decide)⟩
  obtain ⟨hsplits, hall⟩ := scan_word_splits hword none
  obtain ⟨hsame, hstopped⟩ := hall (Settings.of true none) rfl
  have htokens : (scan "true1falsey" none Settings.default).tokens =
      [⟨.boolean, "true", 0⟩, ⟨.integer, "1", 4⟩, ⟨.boolean, "false", 5⟩,
        ⟨.identifier, "y", 10⟩] := by decide +kernel
  exact ⟨hsplits, hsame.trans htokens, hstopped⟩

end TokenStream
