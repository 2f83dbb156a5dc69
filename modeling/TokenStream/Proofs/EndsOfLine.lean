import TokenStream.Proofs.Draining
import TokenStream.Proofs.Spans

/-!
# Where lines end

Which line endings of a source a scan reports can be told from the characters alone, once it is
known where the literals in quotes are.  A line ending that no backslash takes back is always
reported, unless it belongs to such a literal: no other piece has room for a carriage return or a
line feed, neither the blanks, which come after line endings, nor the numbers and words.

## Main definitions

* `EndsLineAt` — a line of a text ends at a position.
* `InLiteral` — a position belongs to one of the literals in quotes among some tokens.

## Main results

* `Piece.Heads.isQuoted_of_lineBreak` — **only line endings and literals in quotes hold a carriage
  return or a line feed**.
* `lineEnd_or_isQuoted_of_split` — where a line ending starts, a scan has it or such a literal.
* `scan_endsLine_iff` — **a scan reports the end of a line exactly where a line of the source ends
  outside of its literals**.
-/

namespace TokenStream

/-- A line of a text ends at a position. -/
structure EndsLineAt (text : List Char) (i : Nat) : Prop where
  /-- A line ending starts there: a carriage return, or a line feed without one before it. -/
  starts : text[i]? = some '\r' ∨ text[i]? = some '\n' ∧ charBefore? text i ≠ some '\r'
  /-- No backslash takes it back. -/
  uncontinued : charBefore? text i ≠ some '\\'

/-- A kind of literals in quotes. -/
def Token.Kind.IsQuoted (kind : Token.Kind) : Prop := kind = .string ∨ kind = .char

/-- A position belongs to one of the literals in quotes among the tokens of a source. -/
def InLiteral (source : List Char) (tokens : List Token) (i : Nat) : Prop :=
  ∃ token ∈ tokens, token.kind.IsQuoted ∧ token.Covers source i

/-! ### Line endings by their characters -/

namespace LineEnding

variable {text : List Char} {i j : Nat} {ending : LineEnding}

theorem StartsAt.starts (h : ending.StartsAt text i) :
    text[i]? = some '\r' ∨ text[i]? = some '\n' ∧ charBefore? text i ≠ some '\r' := by
  cases ending with
  | crlf => exact .inl h.1
  | cr => exact .inl h.1
  | lf => exact .inr h

/-- Of the characters of a line ending, only the first is the start of one. -/
theorem StartsAt.eq_of_starts (h : ending.StartsAt text j)
    (hi : text[i]? = some '\r' ∨ text[i]? = some '\n' ∧ charBefore? text i ≠ some '\r')
    (hle : j ≤ i) (hlt : i < j + ending.chars.length) : i = j := by
  have hone : ending.chars.length = 1 → i = j := by
    intro hlength
    omega
  cases ending with
  | cr => exact hone rfl
  | lf => exact hone rfl
  | crlf =>
    obtain ⟨hcr, hlf⟩ := h
    rcases Nat.eq_or_lt_of_le hle with heq | hgt
    · exact heq.symm
    · obtain rfl : i = j + 1 := Nat.le_antisymm (Nat.le_of_lt_succ hlt) hgt
      have hbefore : charBefore? text (j + 1) = some '\r' := hcr
      rcases hi with hreturn | ⟨-, hne⟩
      · rw [hlf] at hreturn
        contradiction
      · exact absurd hbefore hne

end LineEnding

/-! ### Which pieces hold line breaks -/

/-- A rule whose lexemes can hold a line break is one for literals in quotes. -/
theorem Rule.isQuoted_of_canHold {rule : Rule} {c : Char} (hbreak : c = '\r' ∨ c = '\n')
    (h : rule.canHold c = true) (lexeme : List Char) : (rule.classify lexeme).IsQuoted := by
  cases rule with
  | string => exact .inl rfl
  | char => exact .inr rfl
  | _ =>
    rcases hbreak with rfl | rfl
    · exact absurd h (by decide)
    · exact absurd h (by decide)

section Places

variable {rules : List Rule} {text : List Char} {passed ahead : List Piece} {piece : Piece}

/-- **Only line endings and literals in quotes hold a carriage return or a line feed.** -/
theorem Piece.Heads.isQuoted_of_lineBreak {previous : Option Char} {c d : Char} {rest : List Char}
    (h : Heads rules previous c rest piece) (hd : d ∈ piece.chars) (hbreak : d = '\r' ∨ d = '\n') :
    (∃ ending continued, piece = .lineEnd ending continued) ∨
      ∃ kind chars, piece = .lexeme kind chars ∧ kind.IsQuoted := by
  -- A piece of one character that starts no line ending is no line break.
  have hsingle : LineEnding.atHead? (c :: rest) = none → d ∉ [c] := by
    intro hending hmem
    obtain rfl : d = c := List.mem_singleton.mp hmem
    obtain ⟨hcr, hlf⟩ := LineEnding.ne_of_atHead?_eq_none hending
    exact hbreak.elim hcr hlf
  cases h with
  | lineEnd ending => exact .inl ⟨ending, _, rfl⟩
  | blank hending => exact absurd hd (hsingle hending)
  | unknown hending => exact absurd hd (hsingle hending)
  | lexeme rule chars _ _ hmatch =>
    have hhold : rule.canHold d = true :=
      Rule.canHold_of_mem (Rule.mem_of_firstMatch? hmatch).2 hd
    exact .inr ⟨_, chars, rfl, Rule.isQuoted_of_canHold hbreak hhold chars⟩

/-- Where a scan finds a line ending that is not continued, a line ends. -/
theorem endsLineAt_of_split {ending : LineEnding}
    (h : pieces rules none text = passed ++ .lineEnd ending false :: ahead) :
    EndsLineAt text (widthOf passed) := by
  refine ⟨(LineEnding.startsAt_of_split h).starts, ?_⟩
  intro hbefore
  have hcontinued := continued_of_split h
  rw [hbefore] at hcontinued
  contradiction

/-- The piece that covers the start of a line ending is the line ending, or a literal in quotes. -/
theorem lineEnd_or_isQuoted_of_split {i : Nat}
    (h : pieces rules none text = passed ++ piece :: ahead) (hle : widthOf passed ≤ i)
    (hlt : i < widthOf passed + piece.width)
    (hi : text[i]? = some '\r' ∨ text[i]? = some '\n' ∧ charBefore? text i ≠ some '\r') :
    (∃ ending continued, piece = .lineEnd ending continued ∧ widthOf passed = i) ∨
      ∃ kind chars, piece = .lexeme kind chars ∧ kind.IsQuoted := by
  obtain ⟨c, hc, hbreak⟩ : ∃ c, text[i]? = some c ∧ (c = '\r' ∨ c = '\n') := by
    rcases hi with hcr | ⟨hlf, -⟩
    · exact ⟨_, hcr, .inl rfl⟩
    · exact ⟨_, hlf, .inr rfl⟩
  obtain ⟨_, _, -, hheads, -⟩ := exists_heads_of_split h
  rcases hheads.isQuoted_of_lineBreak (mem_chars_of_split h hle hlt hc) hbreak with
    ⟨ending, continued, rfl⟩ | hquoted
  · have hplace : i = widthOf passed :=
      (LineEnding.startsAt_of_split h).eq_of_starts hi hle hlt
    exact .inl ⟨ending, continued, rfl, hplace.symm⟩
  · exact .inr hquoted

/-- Where a line ends, a scan finds a line ending that is not continued, or it is inside a literal
in quotes. -/
theorem exists_split_of_endsLineAt (rules : List Rule) {i : Nat} (h : EndsLineAt text i) :
    ∃ passed piece ahead, pieces rules none text = passed ++ piece :: ahead ∧
      ((∃ ending, piece = .lineEnd ending false ∧ widthOf passed = i) ∨
        ∃ kind chars, piece = .lexeme kind chars ∧ kind.IsQuoted ∧
          widthOf passed ≤ i ∧ i < widthOf passed + piece.width) := by
  have hi : i < widthOf (pieces rules none text) := by
    rw [widthOf_pieces]
    rcases h.starts with hcr | ⟨hlf, -⟩
    · exact (List.getElem?_eq_some_iff.mp hcr).1
    · exact (List.getElem?_eq_some_iff.mp hlf).1
  obtain ⟨passed, piece, ahead, hsplit, hle, hlt⟩ := exists_piece_at hi
  refine ⟨passed, piece, ahead, hsplit, ?_⟩
  rcases lineEnd_or_isQuoted_of_split hsplit hle hlt h.starts with
    ⟨ending, continued, rfl, hplace⟩ | ⟨kind, chars, rfl, hquoted⟩
  · -- The position is the start of the line ending, so the backslash would be before it.
    have hcontinued : continued = false := by
      rw [continued_of_split hsplit, hplace, beq_eq_false_iff_ne]
      exact h.uncontinued
    exact .inl ⟨ending, by rw [hcontinued], hplace⟩
  · exact .inr ⟨kind, chars, rfl, hquoted, hle, hlt⟩

/-- The end of a line comes from a line ending that is not continued. -/
theorem eq_lineEnd_of_token? {token : Token}
    (h : pieces rules none text = passed ++ piece :: ahead)
    (htoken : piece.token? (widthOf passed) = some token) (hkind : token.kind = .endOfLine) :
    ∃ ending, piece = .lineEnd ending false := by
  cases piece with
  | lineEnd ending continued =>
    cases continued with
    | false => exact ⟨ending, rfl⟩
    | true => contradiction
  | blank => contradiction
  | unknown => cases htoken; contradiction
  | lexeme kind chars =>
    obtain ⟨_, _, -, hheads, -⟩ := exists_heads_of_split h
    cases hheads with
    | lexeme rule => cases htoken; exact absurd hkind (rule.classify_ne_endOfLine chars)

end Places

/-- **A scan reports the end of a line exactly where a line of the source ends outside of its
literals.** -/
theorem scan_endsLine_iff (source : String) (sourceFile : Option String) (i : Nat) :
    let text := source.toList
    let tokens := (scan source sourceFile Settings.default).tokens
    (∃ token ∈ tokens, token.kind = .endOfLine ∧ token.offset = i) ↔
      ¬ InLiteral text tokens i ∧ EndsLineAt text i := by
  intro text tokens
  constructor
  · rintro ⟨token, htoken, hkind, hoffset⟩
    obtain ⟨passed, piece, ahead, hsplit, hfound⟩ := mem_scan_default_iff.mp htoken
    obtain ⟨hplace, -, -⟩ := token_of_split hsplit hfound
    obtain rfl : i = widthOf passed := by omega
    obtain ⟨ending, rfl⟩ := eq_lineEnd_of_token? hsplit hfound hkind
    refine ⟨?_, endsLineAt_of_split hsplit⟩
    -- A literal that covers the position would come from the same piece.
    rintro ⟨literal, hliteral, hquoted, hcovers⟩
    obtain ⟨passed', piece', ahead', hsplit', hfound'⟩ := mem_scan_default_iff.mp hliteral
    obtain ⟨hle', hlt'⟩ := (covers_iff_of_split hsplit' hfound').mp hcovers
    have hpos : 0 < (Piece.lineEnd ending false).width :=
      List.length_pos_iff.mpr ending.chars_ne_nil
    obtain rfl : Piece.lineEnd ending false = piece' :=
      eq_of_split (hsplit.symm.trans hsplit') (Nat.le_refl _) (by omega) hle' hlt'
    cases hfound'
    rcases hquoted with hstring | hchar
    · contradiction
    · contradiction
  · rintro ⟨houtside, hends⟩
    obtain ⟨passed, piece, ahead, hsplit, hpiece⟩ := exists_split_of_endsLineAt Rule.table hends
    rcases hpiece with ⟨ending, rfl, rfl⟩ | ⟨kind, chars, rfl, hquoted, hle, hlt⟩
    · exact ⟨_, mem_scan_default_iff.mpr ⟨passed, _, ahead, hsplit, rfl⟩, rfl, rfl⟩
    · -- The token of this literal would cover the position.
      have hliteral : (Piece.lexeme kind chars).token? (widthOf passed) =
          some ⟨kind, String.ofList chars, widthOf passed⟩ := rfl
      exact absurd ⟨_, mem_scan_default_iff.mpr ⟨passed, _, ahead, hsplit, hliteral⟩, hquoted,
        (covers_iff_of_split hsplit hliteral).mpr ⟨hle, hlt⟩⟩ houtside

/-- Of these three line endings the first is continued, the second inside a literal. -/
example : ((scan "a\\\r\n\"\n\"\r\n" none Settings.default).tokens.filter
    (·.kind == .endOfLine)).map Token.offset = [7] := by decide +kernel

end TokenStream
