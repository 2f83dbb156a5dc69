import TokenStream.Proofs.LineBreaks

/-!
# Spans of tokens

The characters of a source that a token stands for are those of its text, except at a line
ending: its text is one line feed, whatever the source has.  So the span of a token is read from
the token and the source together.

## Main definitions

* `Token.start`, `Token.stopIn` — where the span of a token starts, and where it stops.
* `Token.Covers` — a position lies in the span of a token.
* `Token.Reads` — a token reads as the source has it.

## Main results

* `LineEnding.startsAt_of_split` — where a scan finds a line ending, there is one.
* `token_of_split`, `covers_iff_of_split` — **the span of a token is that of the piece from which it
  comes**.
* `Token.reads_of_split` — the source has in the span of a token what the token says.
-/

namespace TokenStream

namespace Token

/-- Where the span of a token starts. -/
def start (token : Token) : Nat := token.offset.toNat

/-- Where the span of a token stops, in its source: a line ending covers two characters where the
source has a carriage return and a line feed, and one elsewhere. -/
def stopIn (source : List Char) (token : Token) : Nat :=
  if token.kind = .endOfLine then
    if source[token.start]? = some '\r' ∧ source[token.start + 1]? = some '\n' then
      token.start + 2
    else token.start + 1
  else token.start + token.text.length

/-- A position of the source lies in the span of a token. -/
def Covers (source : List Char) (token : Token) (i : Nat) : Prop :=
  token.start ≤ i ∧ i < token.stopIn source

/-- A token reads as the source has it at its offset: a line ending stands at one, and every other
token has the characters of its span for its text. -/
def Reads (source : List Char) (token : Token) : Prop :=
  if token.kind = .endOfLine then
    token.text = "\n" ∧ ∃ ending : LineEnding, ending.StartsAt source token.start ∧
      token.stopIn source = token.start + ending.chars.length
  else (source.drop token.start).take token.text.length = token.text.toList

end Token

/-- The width of a line ending can be read from the source. -/
theorem LineEnding.StartsAt.stop_eq {source : List Char} {i : Nat} {ending : LineEnding}
    (h : ending.StartsAt source i) :
    (if source[i]? = some '\r' ∧ source[i + 1]? = some '\n' then i + 2 else i + 1) =
      i + ending.chars.length := by
  cases ending with
  | crlf =>
    obtain ⟨hcr, hlf⟩ := h
    rw [if_pos ⟨hcr, hlf⟩]
    rfl
  | cr =>
    rw [if_neg fun hboth => h.2 hboth.2]
    rfl
  | lf =>
    rw [if_neg]
    · rfl
    · rintro ⟨hcr, -⟩
      rw [h.1] at hcr
      exact absurd hcr (by decide)

/-- Where a scan finds a line ending, there is one. -/
theorem LineEnding.startsAt_of_split {rules : List Rule} {text : List Char}
    {passed ahead : List Piece} {ending : LineEnding} {continued : Bool}
    (h : pieces rules none text = passed ++ .lineEnd ending continued :: ahead) :
    ending.StartsAt text (widthOf passed) := by
  obtain ⟨c, rest, htext, hheads, hrest⟩ := exists_heads_of_split h
  have hplace : (passed.flatMap Piece.chars).getLast? = some '\r' →
      (c :: rest).head? ≠ some '\n' := by
    intro hlast
    rw [hrest, ← List.flatMap_cons]
    exact head?_ne_of_split h hlast
  rw [htext, ← length_flatMap_chars]
  cases hheads with
  | lineEnd _ hending => exact LineEnding.startsAt_of_atHead? hending hplace

/-- **The span of a token is that of the piece from which it comes.** -/
theorem token_of_split {rules : List Rule} {text : List Char} {passed ahead : List Piece}
    {piece : Piece} {token : Token} (h : pieces rules none text = passed ++ piece :: ahead)
    (htoken : piece.token? (widthOf passed) = some token) :
    token.offset = widthOf passed ∧ token.start = widthOf passed ∧
      token.stopIn text = widthOf passed + piece.width := by
  cases piece with
  | lineEnd ending continued =>
    cases continued with
    | true => contradiction
    | false =>
      cases htoken
      exact ⟨rfl, rfl, (LineEnding.startsAt_of_split h).stop_eq⟩
  | blank c => contradiction
  | lexeme kind chars =>
    cases htoken
    have hkind : kind ≠ .endOfLine := by
      obtain ⟨c, rest, -, hheads, -⟩ := exists_heads_of_split h
      cases hheads with
      | lexeme rule => exact rule.classify_ne_endOfLine chars
    refine ⟨rfl, rfl, ?_⟩
    rw [Token.stopIn, if_neg hkind]
    simp [Token.start, Piece.width, Piece.chars]
  | unknown c =>
    cases htoken
    refine ⟨rfl, rfl, ?_⟩
    rw [Token.stopIn, if_neg (by simp)]
    simp [Token.start, Piece.width, Piece.chars]

/-- A token covers what its piece does. -/
theorem covers_iff_of_split {rules : List Rule} {text : List Char} {passed ahead : List Piece}
    {piece : Piece} {token : Token} {i : Nat}
    (h : pieces rules none text = passed ++ piece :: ahead)
    (htoken : piece.token? (widthOf passed) = some token) :
    token.Covers text i ↔ widthOf passed ≤ i ∧ i < widthOf passed + piece.width := by
  obtain ⟨-, hstart, hstop⟩ := token_of_split h htoken
  rw [Token.Covers, hstart, hstop]

/-- A token that is no line ending has the characters of its piece for its text. -/
theorem Piece.toList_text_of_token? {piece : Piece} {offset : Nat} {token : Token}
    (h : piece.token? offset = some token) (hkind : token.kind ≠ .endOfLine) :
    token.text.toList = piece.chars := by
  cases piece with
  | lineEnd ending continued =>
    cases continued with
    | true => contradiction
    | false => cases h; contradiction
  | blank c => contradiction
  | lexeme kind chars => cases h; exact String.toList_ofList
  | unknown c => cases h; exact String.toList_ofList

/-- A token of a piece at its place reads as the source has it. -/
theorem Token.reads_of_split {rules : List Rule} {text : List Char} {passed ahead : List Piece}
    {piece : Piece} {token : Token} (h : pieces rules none text = passed ++ piece :: ahead)
    (htoken : piece.token? (widthOf passed) = some token) : token.Reads text := by
  obtain ⟨-, hstart, hstop⟩ := token_of_split h htoken
  unfold Token.Reads
  split
  · next hkind =>
    cases piece with
    | lineEnd ending continued =>
      cases continued with
      | true => contradiction
      | false =>
        refine ⟨by cases htoken; rfl, ending, ?_, by rw [hstop, hstart]; rfl⟩
        rw [hstart]
        exact LineEnding.startsAt_of_split h
    | blank c => contradiction
    | lexeme kind chars =>
      obtain ⟨c, rest, -, hheads, -⟩ := exists_heads_of_split h
      cases hheads with
      | lexeme rule => cases htoken; exact absurd hkind (rule.classify_ne_endOfLine chars)
    | unknown c => cases htoken; contradiction
  · next hkind =>
    obtain ⟨htext, -⟩ := pieces_split h
    rw [hstart, ← String.length_toList, Piece.toList_text_of_token? htoken hkind, htext,
      ← length_flatMap_chars, List.drop_left, List.flatMap_cons, List.take_left]

end TokenStream
