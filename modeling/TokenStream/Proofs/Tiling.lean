import TokenStream.Proofs.Draining
import TokenStream.Proofs.Spans

/-!
# Tokens tile their source

A scan with the default settings accounts for every character.  The spans of its tokens follow
one another without an overlap, and what lies between them is blank, or a line ending that a
backslash takes back.  A text of a token can be shorter than its span, so this is a statement
about spans; it comes from the pieces, which do cover the source without a gap.

## Main definitions

* `IsPassedOver` — a position that a scan may pass in silence.
* `Tiling` — what it means for tokens to account for every character of a source.

## Main results

* `default_scan_tiles` — **a scan with the default settings never fails, and its tokens tile the
  source**.
-/

namespace TokenStream

/-- A position that a scan may pass in silence: it holds a blank that ends no line, or belongs to a
line ending directly after a backslash. -/
def IsPassedOver (source : List Char) (i : Nat) : Prop :=
  (∃ c, source[i]? = some c ∧ isBlank c = true ∧ c ≠ '\r' ∧ c ≠ '\n') ∨
    ∃ j, ∃ ending : LineEnding, ending.StartsAt source j ∧ charBefore? source j = some '\\' ∧
      j ≤ i ∧ i < j + ending.chars.length

/-- Tokens that account for every character of a source. -/
structure Tiling (source : List Char) (tokens : List Token) : Prop where
  /-- Every token reads as the source has it at its offset. -/
  reads : ∀ token ∈ tokens, 0 ≤ token.offset ∧ token.Reads source
  /-- Every span is a part of the source that is not empty. -/
  inside : ∀ token ∈ tokens, token.start < token.stopIn source ∧
    token.stopIn source ≤ source.length
  /-- The offsets increase, and no two spans overlap. -/
  ordered : tokens.Pairwise fun earlier later =>
    earlier.offset < later.offset ∧ earlier.stopIn source ≤ later.start
  /-- What lies in no span may be passed in silence. -/
  gaps : ∀ i < source.length, (∀ token ∈ tokens, ¬ token.Covers source i) →
    IsPassedOver source i
  /-- No span has one half of a carriage return and line feed without the other. -/
  unsplit : ∀ i, source[i]? = some '\r' → source[i + 1]? = some '\n' →
    ∀ token ∈ tokens, token.Covers source i ↔ token.Covers source (i + 1)

section Places

variable {rules : List Rule} {text : List Char} {passed ahead : List Piece}

/-- No place of a scan comes right after the carriage return of a carriage return and line feed. -/
theorem widthOf_ne_of_crlf (h : pieces rules none text = passed ++ ahead) {i : Nat}
    (hcr : text[i]? = some '\r') (hlf : text[i + 1]? = some '\n') : widthOf passed ≠ i + 1 := by
  intro hwidth
  obtain ⟨htext, -⟩ := pieces_split h
  have hlength : (passed.flatMap Piece.chars).length = i + 1 := by
    rw [length_flatMap_chars, hwidth]
  have hlast : (passed.flatMap Piece.chars).getLast? = some '\r' := by
    rw [List.getLast?_eq_getElem?, hlength, Nat.add_sub_cancel, ← hcr, htext,
      List.getElem?_append_left (by omega)]
  apply head?_ne_of_split h hlast
  rw [List.head?_eq_getElem?, ← hlf, htext, List.getElem?_append_right (by omega), hlength,
    Nat.sub_self]

/-- A token of the pieces ahead of a place comes from a piece at a later place. -/
theorem exists_split_of_mem (h : pieces rules none text = passed ++ ahead) {token : Token}
    (htoken : token ∈ tokensOf (widthOf passed) ahead) :
    ∃ between piece after, pieces rules none text = passed ++ between ++ piece :: after ∧
      piece.token? (widthOf (passed ++ between)) = some token := by
  obtain ⟨between, piece, after, rfl, hfound⟩ := mem_tokensOf_iff.mp htoken
  refine ⟨between, piece, after, ?_, ?_⟩
  · rw [h, List.append_assoc]
  · rwa [widthOf_append]

/-- The spans of the tokens ahead of a place follow one another. -/
theorem pairwise_tokensOf (h : pieces rules none text = passed ++ ahead) :
    (tokensOf (widthOf passed) ahead).Pairwise fun earlier later =>
      earlier.offset < later.offset ∧ earlier.stopIn text ≤ later.start := by
  -- Taking the first piece ahead moves the place behind it.
  induction ahead generalizing passed with
  | nil => exact List.Pairwise.nil
  | cons piece rest ih =>
    have hnext : pieces rules none text = (passed ++ [piece]) ++ rest := by
      rw [h, List.append_assoc, List.singleton_append]
    have hwidth : widthOf (passed ++ [piece]) = widthOf passed + piece.width := by simp
    rw [tokensOf_cons, ← hwidth, List.pairwise_append]
    refine ⟨?_, ih hnext, ?_⟩
    · cases piece.token? (widthOf passed) <;> simp
    · intro earlier hearlier later hlater
      rw [Option.mem_toList] at hearlier
      obtain ⟨hoffset, -, hstop⟩ := token_of_split h hearlier
      obtain ⟨between, piece', after, hsplit, hfound⟩ := exists_split_of_mem hnext hlater
      obtain ⟨hoffset', hstart', -⟩ := token_of_split hsplit hfound
      have hpos : 0 < piece.width := by
        obtain ⟨c, text', -, hheads, -⟩ := exists_heads_of_split h
        exact List.length_pos_iff.mpr hheads.chars_ne_nil
      rw [widthOf_append, hwidth] at hoffset' hstart'
      omega

/-- A piece that yields no token covers what a scan may pass in silence. -/
theorem isPassedOver_of_split {piece : Piece}
    (h : pieces rules none text = passed ++ piece :: ahead)
    (hnone : piece.token? (widthOf passed) = none) {i : Nat} (hle : widthOf passed ≤ i)
    (hlt : i < widthOf passed + piece.width) : IsPassedOver text i := by
  obtain ⟨c, rest, htext, hheads, -⟩ := exists_heads_of_split h
  cases hheads with
  | lineEnd ending hending =>
    have hbefore : charBefore? text (widthOf passed) = some '\\' := by
      rw [← beq_iff_eq, ← continued_of_split h]
      cases hcontinued : (passed.flatMap Piece.chars).getLast?.or none == some '\\' with
      | true => rfl
      | false => rw [hcontinued] at hnone; contradiction
    exact .inr ⟨_, ending, LineEnding.startsAt_of_split h, hbefore, hle, hlt⟩
  | blank hending hblank =>
    simp only [Piece.width, Piece.chars, List.length_singleton] at hlt
    obtain rfl : i = widthOf passed := by omega
    refine .inl ⟨c, ?_, hblank, LineEnding.ne_of_atHead?_eq_none hending⟩
    rw [htext, ← length_flatMap_chars, List.getElem?_append_right (Nat.le_refl _), Nat.sub_self]
    rfl
  | lexeme => contradiction
  | unknown => contradiction

end Places

/-- **A scan with the default settings never fails, and its tokens tile the source.** -/
theorem default_scan_tiles (source : String) (sourceFile : Option String) :
    (scan source sourceFile Settings.default).stopped = none ∧
      Tiling source.toList (scan source sourceFile Settings.default).tokens := by
  refine ⟨scan_default_stopped source sourceFile, ?_⟩
  rw [scan_default_tokens]
  have hstart : pieces Rule.table none source.toList =
      [] ++ pieces Rule.table none source.toList := rfl
  have hsplit : ∀ token ∈ tokensOf 0 (pieces Rule.table none source.toList),
      ∃ passed piece ahead, pieces Rule.table none source.toList = passed ++ piece :: ahead ∧
        piece.token? (widthOf passed) = some token := fun token htoken =>
    exists_split_of_mem hstart htoken
  constructor
  case reads =>
    intro token htoken
    obtain ⟨passed, piece, ahead, h, hfound⟩ := hsplit token htoken
    obtain ⟨hoffset, -, -⟩ := token_of_split h hfound
    exact ⟨by omega, Token.reads_of_split h hfound⟩
  case inside =>
    intro token htoken
    obtain ⟨passed, piece, ahead, h, hfound⟩ := hsplit token htoken
    obtain ⟨-, hstart, hstop⟩ := token_of_split h hfound
    have hpos : 0 < piece.width := by
      obtain ⟨c, rest, -, hheads, -⟩ := exists_heads_of_split h
      exact List.length_pos_iff.mpr hheads.chars_ne_nil
    have htotal := congrArg widthOf h
    rw [widthOf_pieces, widthOf_append, widthOf_cons] at htotal
    omega
  case ordered => exact pairwise_tokensOf hstart
  case gaps =>
    intro i hi hfree
    rw [← widthOf_pieces Rule.table none source.toList] at hi
    obtain ⟨passed, piece, ahead, h, hle, hlt⟩ := exists_piece_at hi
    cases htoken : piece.token? (widthOf passed) with
    | none => exact isPassedOver_of_split h htoken hle hlt
    | some token =>
      -- The token of this piece would cover the position.
      obtain ⟨-, hstart, hstop⟩ := token_of_split h htoken
      have hmem : token ∈ tokensOf 0 (pieces Rule.table none source.toList) :=
        mem_tokensOf_iff.mpr ⟨passed, piece, ahead, h, by rwa [Nat.zero_add]⟩
      exact absurd ⟨by omega, by omega⟩ (hfree token hmem)
  case unsplit =>
    intro i hcr hlf token htoken
    obtain ⟨passed, piece, ahead, h, hfound⟩ := hsplit token htoken
    obtain ⟨-, hstart, hstop⟩ := token_of_split h hfound
    have hnext : pieces Rule.table none source.toList = (passed ++ [piece]) ++ ahead := by
      rw [h, List.append_assoc, List.singleton_append]
    have hfront := widthOf_ne_of_crlf h hcr hlf
    have hback := widthOf_ne_of_crlf hnext hcr hlf
    rw [widthOf_append, widthOf_cons, widthOf_nil, Nat.add_zero] at hback
    simp only [Token.Covers]
    omega

end TokenStream
