import TokenStream.Proofs.Draining
import TokenStream.Proofs.Escapes
import TokenStream.Proofs.LineBreaks

/-!
# Line feeds as points of synchronisation

A line feed outside literals cuts a scan in two.  What comes after it cannot change a token before
it, because no form of lexeme looks beyond a line feed except a literal in quotes, and every
literal before it is closed.  What comes before it cannot change a token after it, because a
piece sees no more of the past than whether a backslash is the last character of it.

## Main definitions

* `Token.IsClosed` — a token that is no open literal, and none that closes at an escaped quote.
* `Piece.IsClosed` — the same for pieces.

## Main results

* `Rule.lexeme?_lineFeed` — a form other than a literal is not affected by what follows a line feed.
* `pieces_append_lineFeed` — **the pieces up to a line feed after closed literals, and those after
  it, are found independently**.
* `scan_append_lineFeed` — the same for the tokens of a scan.
-/

namespace TokenStream

/-! ### What follows a line feed -/

namespace Lexeme

theorem integer?_lineFeed (front back other : List Char) :
    integer? (front ++ '\n' :: back) = integer? (front ++ '\n' :: other) := by
  have hstop : isDecimalDigit '\n' = false := by decide
  rw [integer?, integer?, takeWhile_append_cons hstop, takeWhile_append_cons hstop]

theorem float?_lineFeed (front back other : List Char) :
    float? (front ++ '\n' :: back) = float? (front ++ '\n' :: other) := by
  have hstop : isDecimalDigit '\n' = false := by decide
  rw [float?, float?, integer?_lineFeed front back other, dropWhile_append_cons hstop,
    dropWhile_append_cons hstop]
  congr 1
  funext whole
  cases front.dropWhile isDecimalDigit with
  | nil => rfl
  | cons c rest =>
    by_cases hc : c = '.'
    · subst hc
      simp only [List.cons_append, integer?_lineFeed rest back other]
    · simp only [List.cons_append]
      split
      · next h => exact absurd (List.cons.inj h).1 hc
      · split
        · next h => exact absurd (List.cons.inj h).1 hc
        · rfl

theorem isPrefix_append_cons_iff {lexeme : List Char} {stop : Char} (h : stop ∉ lexeme)
    (front back : List Char) : lexeme <+: front ++ stop :: back ↔ lexeme <+: front := by
  constructor
  · intro hstarts
    induction lexeme generalizing front with
    | nil => exact List.nil_prefix
    | cons c lexeme ih =>
      rw [List.mem_cons, not_or] at h
      cases front with
      | nil =>
        rw [List.nil_append, List.cons_prefix_cons] at hstarts
        exact absurd hstarts.1.symm h.1
      | cons d front =>
        rw [List.cons_append, List.cons_prefix_cons] at hstarts
        exact List.cons_prefix_cons.mpr ⟨hstarts.1, ih h.2 front hstarts.2⟩
  · intro hstarts
    exact hstarts.trans (List.prefix_append front _)

theorem boolean?_lineFeed (front back other : List Char) :
    boolean? (front ++ '\n' :: back) = boolean? (front ++ '\n' :: other) := by
  apply Option.ext
  intro lexeme
  rw [boolean?_eq_some_iff, boolean?_eq_some_iff]
  refine and_congr_right fun hlexeme => ?_
  have hstop : '\n' ∉ lexeme := by rcases hlexeme with rfl | rfl <;> decide
  rw [isPrefix_append_cons_iff hstop, isPrefix_append_cons_iff hstop]

theorem word?_lineFeed (front back other : List Char) :
    word? (front ++ '\n' :: back) = word? (front ++ '\n' :: other) := by
  have hstop : isWordPart '\n' = false := by decide
  cases front with
  | nil => rfl
  | cons c front =>
    rw [List.cons_append, List.cons_append, word?, word?, takeWhile_append_cons hstop,
      takeWhile_append_cons hstop]

/-- A character in quotes that is complete before a line feed is recognised whatever follows. -/
theorem character?_lineFeed {front lexeme : List Char} (back : List Char)
    (h : character? (front ++ ['\n']) = some lexeme) :
    character? (front ++ '\n' :: back) = some lexeme := by
  have hfront : lexeme <+: front := by
    rcases List.prefix_concat_iff.mp (character?_isPrefix h) with hall | hfront
    · have hlast := character?_getLast h
      rw [hall, List.getLast?_concat] at hlast
      contradiction
    · exact hfront
  rw [character?_eq_some_iff] at h ⊢
  rcases h with ⟨c, hc, rfl, -⟩ | ⟨c, hc, rfl, -, hthird⟩
  · exact .inl ⟨c, hc, rfl, hfront.trans (List.prefix_append front _)⟩
  · refine .inr ⟨c, hc, rfl, hfront.trans (List.prefix_append front _), ?_⟩
    rintro ⟨hbackslash, hquote⟩
    apply hthird
    refine ⟨hbackslash, ?_⟩
    have hlength : 3 ≤ front.length := hfront.length_le
    rw [← hquote]
    rcases Nat.lt_or_eq_of_le hlength with hlt | heq
    · rw [List.getElem?_append_left hlt, List.getElem?_append_left hlt]
    · rw [heq, List.getElem?_append_right (Nat.le_refl _),
        List.getElem?_append_right (Nat.le_refl _), Nat.sub_self]
      rfl

/-- A text in quotes that closes before a line feed at a quote that is not escaped is recognised
whatever follows. -/
theorem string?_lineFeed {front lexeme : List Char} (back : List Char)
    (h : string? (front ++ ['\n']) = some lexeme)
    (heven : trailingBackslashes lexeme.dropLast % 2 = 0) :
    string? (front ++ '\n' :: back) = some lexeme := by
  cases front with
  | nil => contradiction
  | cons c front =>
    by_cases hc : c = '\x22'
    · subst hc
      rw [List.cons_append, string?] at h ⊢
      obtain ⟨found, hfound, rfl⟩ := Option.map_eq_some_iff.mp h
      cases hfirst : toFirstQuote? (front ++ ['\n']) with
      | some first =>
        rw [hfirst, Option.some_or] at hfound
        have happend := toFirstQuote?_append back hfirst
        rw [List.append_assoc, List.singleton_append] at happend
        rw [happend, Option.some_or, hfound]
        rfl
      | none =>
        -- The last quote would be escaped, and so the backslashes before it odd.
        rw [hfirst, Option.none_or] at hfound
        obtain ⟨body, rfl⟩ := List.getLast?_eq_some_iff.mp (toLastQuote?_getLast hfound)
        obtain ⟨after, hafter⟩ := toLastQuote?_isPrefix hfound
        rw [← List.cons_append, List.dropLast_concat, trailingBackslashes_quote_cons] at heven
        have hquote : front ++ ['\n'] = body ++ '\x22' :: after := by
          rw [← hafter, List.append_assoc, List.singleton_append]
        have hsome := isSome_toFirstQuote? hquote heven
        rw [hfirst] at hsome
        contradiction
    · rw [List.cons_append, string?_eq_none _ hc] at h
      contradiction

end Lexeme

namespace Rule

/-- Rules whose lexemes match a text in the same way have the same first match. -/
theorem firstMatch?_congr {rules : List Rule} {text other : List Char}
    (h : ∀ rule ∈ rules, rule.lexeme? text = rule.lexeme? other) :
    firstMatch? rules text = firstMatch? rules other := by
  induction rules with
  | nil => rfl
  | cons rule rules ih =>
    rw [List.forall_mem_cons] at h
    have hrest := ih h.2
    unfold firstMatch? at hrest ⊢
    rw [List.findSome?_cons, List.findSome?_cons, h.1, hrest]

/-- A form other than a literal is not affected by what follows a line feed. -/
theorem lexeme?_lineFeed {rule : Rule} (hstring : rule ≠ string) (hchar : rule ≠ char)
    (front back other : List Char) :
    rule.lexeme? (front ++ '\n' :: back) = rule.lexeme? (front ++ '\n' :: other) := by
  cases rule with
  | float => exact Lexeme.float?_lineFeed front back other
  | integer => exact Lexeme.integer?_lineFeed front back other
  | boolean => exact Lexeme.boolean?_lineFeed front back other
  | string => exact absurd rfl hstring
  | char => exact absurd rfl hchar
  | identifier => exact Lexeme.word?_lineFeed front back other

/-- Where only one rule has a chance, the first match is what it recognises. -/
theorem firstMatch?_of_forall_ne {rules : List Rule} {rule : Rule} {text : List Char}
    (hmem : rule ∈ rules) (hother : ∀ other, other ≠ rule → other.lexeme? text = none) :
    firstMatch? rules text = (rule.lexeme? text).map fun lexeme => (rule, lexeme) := by
  unfold firstMatch?
  induction rules with
  | nil => contradiction
  | cons other rules ih =>
    rw [List.findSome?_cons]
    by_cases hrule : other = rule
    · subst hrule
      cases hlexeme : other.lexeme? text with
      | some lexeme => rfl
      | none =>
        rw [Option.map_none, List.findSome?_eq_none_iff]
        intro candidate _
        by_cases hcandidate : candidate = other
        · rw [hcandidate, hlexeme]
          rfl
        · rw [hother candidate hcandidate]
          rfl
    · rw [hother other hrule]
      exact ih ((List.mem_cons.mp hmem).resolve_left (Ne.symm hrule))

/-- At a character with which only one rule starts, the first match is what it recognises. -/
theorem firstMatch?_table_of_canStart {rule : Rule} {c : Char} (rest : List Char)
    (hother : ∀ other, other ≠ rule → other.canStart c = false) :
    firstMatch? table (c :: rest) =
      (rule.lexeme? (c :: rest)).map fun lexeme => (rule, lexeme) := by
  apply firstMatch?_of_forall_ne (by cases rule <;> decide)
  intro other hne
  exact lexeme?_eq_none_of_canStart rest (hother other hne)

theorem canStart_doubleQuote (other : Rule) (h : other ≠ string) :
    other.canStart '\x22' = false := by
  cases other with
  | string => exact absurd rfl h
  | _ => decide

theorem canStart_singleQuote (other : Rule) (h : other ≠ char) :
    other.canStart '\x27' = false := by
  cases other with
  | char => exact absurd rfl h
  | _ => decide

end Rule

/-! ### Closed literals -/

/-- A token that is no open literal, and none that closes at an escaped quote: no quote stands
alone, and the backslashes directly before the closing quote of a text are even in number. -/
def Token.IsClosed (token : Token) : Prop :=
  (token.kind = .unknown → token.text ≠ "\"" ∧ token.text ≠ "'") ∧
    (token.kind = .string → trailingBackslashes token.text.toList.dropLast % 2 = 0)

instance (token : Token) : Decidable token.IsClosed :=
  inferInstanceAs (Decidable (_ ∧ _))

/-- A piece that is no open literal, and none that closes at an escaped quote. -/
def Piece.IsClosed : Piece → Prop
  | unknown c => c ≠ '\x22' ∧ c ≠ '\x27'
  | lexeme kind chars => kind = .string → trailingBackslashes chars.dropLast % 2 = 0
  | _ => True

/-- A piece is closed if its token is. -/
theorem Piece.isClosed_of_token {piece : Piece} {offset : Nat}
    (h : ∀ token, piece.token? offset = some token → token.IsClosed) : piece.IsClosed := by
  cases piece with
  | lineEnd ending continued => trivial
  | blank c => trivial
  | lexeme kind chars =>
    intro hkind
    have hclosed := (h _ rfl).2 hkind
    rwa [String.toList_ofList] at hclosed
  | unknown c =>
    obtain ⟨hdouble, hsingle⟩ := (h _ rfl).1 rfl
    exact ⟨fun hc => hdouble (by rw [hc]), fun hc => hsingle (by rw [hc])⟩

section Head

variable {previous : Option Char} {c : Char} {front : List Char} (back : List Char)

/-- What follows a line feed does not affect what the rules recognise before it, unless a literal
is left open. -/
theorem firstMatch?_lineFeed (hending : LineEnding.atHead? (c :: (front ++ ['\n'])) = none)
    (hblank : isBlank c = false)
    (h : (Piece.atHead Rule.table previous c (front ++ ['\n'])).IsClosed) :
    Rule.firstMatch? Rule.table (c :: (front ++ '\n' :: back)) =
      Rule.firstMatch? Rule.table (c :: (front ++ ['\n'])) := by
  simp only [Piece.atHead, hending, hblank, Bool.false_eq_true, if_false] at h
  by_cases hdouble : c = '\x22'
  · subst hdouble
    rw [Rule.firstMatch?_table_of_canStart _ Rule.canStart_doubleQuote] at h ⊢
    rw [Rule.firstMatch?_table_of_canStart _ Rule.canStart_doubleQuote]
    cases hlexeme : Rule.string.lexeme? ('\x22' :: (front ++ ['\n'])) with
    | none => rw [hlexeme] at h; exact absurd rfl h.1
    | some lexeme =>
      rw [hlexeme] at h
      rw [← List.cons_append] at hlexeme
      have hlonger : Rule.string.lexeme? ('\x22' :: front ++ '\n' :: back) = some lexeme := by
        unfold Rule.lexeme? at hlexeme ⊢
        exact Lexeme.string?_lineFeed back hlexeme (h rfl)
      rw [List.cons_append] at hlonger
      rw [hlonger]
  · by_cases hsingle : c = '\x27'
    · subst hsingle
      rw [Rule.firstMatch?_table_of_canStart _ Rule.canStart_singleQuote] at h ⊢
      rw [Rule.firstMatch?_table_of_canStart _ Rule.canStart_singleQuote]
      cases hlexeme : Rule.char.lexeme? ('\x27' :: (front ++ ['\n'])) with
      | none => rw [hlexeme] at h; exact absurd rfl h.2
      | some lexeme =>
        rw [← List.cons_append] at hlexeme
        have hlonger : Rule.char.lexeme? ('\x27' :: front ++ '\n' :: back) = some lexeme := by
          unfold Rule.lexeme? at hlexeme ⊢
          exact Lexeme.character?_lineFeed back hlexeme
        rw [List.cons_append] at hlonger
        rw [hlonger]
    · apply Rule.firstMatch?_congr
      intro rule _
      by_cases hstring : rule = .string
      · have hstart : rule.canStart c = false := by
          rw [hstring]
          exact beq_eq_false_iff_ne.mpr hdouble
        rw [Rule.lexeme?_eq_none_of_canStart _ hstart, Rule.lexeme?_eq_none_of_canStart _ hstart]
      · by_cases hchar : rule = .char
        · have hstart : rule.canStart c = false := by
            rw [hchar]
            exact beq_eq_false_iff_ne.mpr hsingle
          rw [Rule.lexeme?_eq_none_of_canStart _ hstart, Rule.lexeme?_eq_none_of_canStart _ hstart]
        · exact Rule.lexeme?_lineFeed hstring hchar (c :: front) back []

/-- What follows a line feed does not affect a closed piece before it. -/
theorem Piece.atHead_lineFeed (h : (atHead Rule.table previous c (front ++ ['\n'])).IsClosed) :
    atHead Rule.table previous c (front ++ '\n' :: back) =
      atHead Rule.table previous c (front ++ ['\n']) := by
  have hending : LineEnding.atHead? (c :: (front ++ '\n' :: back)) =
      LineEnding.atHead? (c :: (front ++ ['\n'])) := by
    cases front with
    | nil => rw [List.nil_append, List.nil_append, LineEnding.atHead?_cons_cons,
        LineEnding.atHead?_cons_cons]
    | cons d front => rw [List.cons_append, List.cons_append, LineEnding.atHead?_cons_cons,
        LineEnding.atHead?_cons_cons]
  unfold atHead
  rw [hending]
  split
  · rfl
  · next hnone =>
    split
    · rfl
    · next hblank => rw [firstMatch?_lineFeed back hnone (by simpa using hblank) h]

end Head

/-! ### Cutting a scan at a line feed -/

/-- A scan does not see what came before, unless that is a backslash. -/
theorem pieces_of_ne_backslash {rules : List Rule} {previous : Option Char} (text : List Char)
    (h : previous ≠ some '\\') : pieces rules previous text = pieces rules none text := by
  cases text with
  | nil => rw [pieces_nil, pieces_nil]
  | cons c rest =>
    have hhead : Piece.atHead rules previous c rest = Piece.atHead rules none c rest := by
      unfold Piece.atHead
      rw [beq_eq_false_iff_ne.mpr h]
      rfl
    rw [pieces_cons, pieces_cons, hhead]

/-- **The pieces up to a line feed after closed literals, and those after it, are found
independently.** -/
theorem pieces_append_lineFeed {previous : Option Char} {front : List Char} (back : List Char)
    (h : ∀ piece ∈ pieces Rule.table previous (front ++ ['\n']), piece.IsClosed) :
    pieces Rule.table previous (front ++ '\n' :: back) =
      pieces Rule.table previous (front ++ ['\n']) ++ pieces Rule.table none back := by
  generalize htext : front ++ ['\n'] = text at h ⊢
  -- The induction takes a piece off the front, which ends before the line feed or with it.
  fun_induction pieces Rule.table previous text generalizing front with
  | case1 => simp at htext
  | case2 previous c rest piece =>
    rename_i ih
    rw [List.forall_mem_cons] at h
    obtain ⟨rest', htext', hhead⟩ : ∃ rest', front ++ '\n' :: back = c :: rest' ∧
        Piece.atHead Rule.table previous c rest' = piece := by
      cases front with
      | nil =>
        obtain ⟨rfl, rfl⟩ := List.cons.inj htext
        exact ⟨back, rfl, rfl⟩
      | cons d front =>
        obtain ⟨rfl, rfl⟩ := List.cons.inj htext
        exact ⟨front ++ '\n' :: back, rfl, Piece.atHead_lineFeed back h.1⟩
    rw [htext', pieces_cons, hhead, List.cons_append, ← htext']
    congr 1
    by_cases hwidth : piece.width ≤ front.length
    · rw [List.drop_append_of_le_length hwidth]
      refine ih ?_ h.2
      rw [← htext, List.drop_append_of_le_length hwidth]
    · -- The piece is all of the text up to the line feed, and ends with it.
      have hstarts : piece.chars <+: c :: rest :=
        Piece.chars_atHead_isPrefix Rule.table previous c rest
      rw [← htext] at hstarts ⊢
      have hlength : piece.width = (front ++ ['\n']).length := by
        have hle := hstarts.length_le
        rw [List.length_append, List.length_singleton] at hle ⊢
        exact Nat.le_antisymm hle (by omega)
      have hchars : piece.chars = front ++ ['\n'] := hstarts.eq_of_length hlength
      have hcut : front ++ '\n' :: back = (front ++ ['\n']) ++ back := by
        rw [List.append_assoc, List.singleton_append]
      rw [hcut, hlength, List.drop_left, List.drop_length, pieces_nil, List.nil_append, hchars,
        List.getLast?_concat]
      exact pieces_of_ne_backslash back (by decide)

/-- **A line feed after closed literals cuts a scan in two.**  The tokens are those up to the line
feed, and those that a scan of the rest yields by itself, further along by what comes before. -/
theorem scan_append_lineFeed (front back : String) (sourceFile : Option String)
    (h : ∀ token ∈ (scan (front ++ "\n") sourceFile Settings.default).tokens, token.IsClosed) :
    (scan (front ++ "\n" ++ back) sourceFile Settings.default).tokens =
      (scan (front ++ "\n") sourceFile Settings.default).tokens ++
        (scan back sourceFile Settings.default).tokens.map (Token.shift (front.length + 1)) := by
  simp only [scan_default_tokens, String.toList_append] at h ⊢
  have hlineFeed : "\n".toList = ['\n'] := by decide
  rw [hlineFeed] at h ⊢
  have hclosed : ∀ piece ∈ pieces Rule.table none (front.toList ++ ['\n']), piece.IsClosed := by
    intro piece hpiece
    obtain ⟨passed, ahead, hsplit⟩ := List.mem_iff_append.mp hpiece
    apply @Piece.isClosed_of_token piece (widthOf passed)
    intro token htoken
    exact h token (mem_tokensOf_iff.mpr ⟨passed, piece, ahead, hsplit, by rwa [Nat.zero_add]⟩)
  rw [List.append_assoc, List.singleton_append, pieces_append_lineFeed _ hclosed, tokensOf_append,
    widthOf_pieces, List.length_append, List.length_singleton, String.length_toList, tokensOf_add]
  rfl

/-- A text that ends in an escaped backslash, a number and a character are closed, so an open quote
on the next line does not reach back to them. -/
theorem scan_openQuote_on_next_line :
    (∀ token ∈ (scan ("s \"a\\\\\" 1.5 'b'" ++ "\n") none Settings.default).tokens,
      token.IsClosed) ∧
    (scan ("s \"a\\\\\" 1.5 'b'" ++ "\n" ++ ".5 \"c'") none Settings.default).tokens =
      (scan ("s \"a\\\\\" 1.5 'b'" ++ "\n") none Settings.default).tokens ++
        (scan ".5 \"c'" none Settings.default).tokens.map
          (Token.shift ("s \"a\\\\\" 1.5 'b'".length + 1)) :=
  ⟨by decide +kernel,
    scan_append_lineFeed "s \"a\\\\\" 1.5 'b'" ".5 \"c'" none (by decide +kernel)⟩

end TokenStream
