import TokenStream.Scan.Event
import TokenStream.Scan.LineEnding
import TokenStream.Scan.Rule
import TokenStream.Text.Blank
import TokenStream.Token.Basic

/-!
# The pieces of a source

Every source falls into pieces that follow one another without a gap: line endings, blank
characters, lexemes and single characters that no rule recognises.  Some pieces are tokens, some
are reported on the side, some are passed over in silence.  The pieces depend on the text alone:
settings decide only how far a scan gets through them.

A piece sees the text from its own start on, and one character before: a line ending directly
after a backslash is continued, which means that it does not end the line.

## Main definitions

* `Piece` — one piece, `Piece.chars` — the characters it covers.
* `Piece.atHead` — the piece with which a text starts.
* `pieces` — all the pieces of a text.
* `Piece.token?`, `Piece.event?` — what a piece at an offset yields, and what it reports.
* `tokensOf`, `eventsOf` — the same for pieces in a row.

## Main results

* `Piece.chars_atHead_isPrefix`, `Piece.width_atHead_pos` — a piece is a non-empty start of the
  text.
* `flatMap_chars_pieces` — **the pieces of a text put together are the text**.
-/

namespace TokenStream

/-- One piece of a source. -/
inductive Piece
  /-- A line ending, continued or not. -/
  | lineEnd (ending : LineEnding) (continued : Bool)
  /-- A blank character. -/
  | blank (c : Char)
  /-- What a rule recognises, with its kind. -/
  | lexeme (kind : Token.Kind) (chars : List Char)
  /-- A character that no rule recognises. -/
  | unknown (c : Char)
deriving DecidableEq, Repr, Inhabited

namespace Piece

/-- The characters that a piece covers. -/
def chars : Piece → List Char
  | lineEnd ending _ => ending.chars
  | blank c => [c]
  | lexeme _ chars => chars
  | unknown c => [c]

/-- How many characters a piece covers. -/
def width (piece : Piece) : Nat := piece.chars.length

/-- The piece with which the text `c :: rest` starts.  Line endings come first, then blanks, then
the rules in their order. -/
def atHead (rules : List Rule) (previous : Option Char) (c : Char) (rest : List Char) : Piece :=
  match LineEnding.atHead? (c :: rest) with
  | some ending => lineEnd ending (previous == some '\\')
  | none =>
    if isBlank c then blank c
    else
      match Rule.firstMatch? rules (c :: rest) with
      | some (rule, chars) => lexeme (rule.classify chars) chars
      | none => unknown c

/-- A piece covers what the text starts with. -/
theorem chars_atHead_isPrefix (rules : List Rule) (previous : Option Char) (c : Char)
    (rest : List Char) : (atHead rules previous c rest).chars <+: c :: rest := by
  unfold atHead
  split
  · next h => exact LineEnding.chars_isPrefix h
  · split
    · simp [chars]
    · split
      · next h => exact Rule.lexeme?_isPrefix (Rule.mem_of_firstMatch? h).2
      · simp [chars]

/-- A piece covers at least one character. -/
theorem width_atHead_pos (rules : List Rule) (previous : Option Char) (c : Char)
    (rest : List Char) : 0 < (atHead rules previous c rest).width := by
  unfold atHead
  split
  · exact List.length_pos_iff.mpr (LineEnding.chars_ne_nil _)
  · split
    · simp [width, chars]
    · split
      · next h => exact List.length_pos_iff.mpr (Rule.lexeme?_ne_nil (Rule.mem_of_firstMatch? h).2)
      · simp [width, chars]

/-- The token that a piece at an offset yields: blanks and continued line endings yield none. -/
def token? (offset : Nat) : Piece → Option Token
  | lineEnd _ false => some ⟨.endOfLine, "\n", offset⟩
  | lineEnd _ true => none
  | blank _ => none
  | lexeme kind chars => some ⟨kind, String.ofList chars, offset⟩
  | unknown c => some ⟨.unknown, String.ofList [c], offset⟩

/-- What is reported about a piece at an offset. -/
def event? (offset : Nat) : Piece → Option Event
  | lineEnd _ true => some (.lineContinuation offset)
  | unknown c => some (.unknownCharacter c offset)
  | _ => none

end Piece

/-! ### All the pieces of a text -/

/-- The pieces of a text, given the character before it. -/
def pieces (rules : List Rule) (previous : Option Char) : List Char → List Piece
  | [] => []
  | c :: rest =>
    let piece := Piece.atHead rules previous c rest
    piece :: pieces rules piece.chars.getLast? ((c :: rest).drop piece.width)
termination_by text => text.length
decreasing_by
  have := Piece.width_atHead_pos rules previous c rest
  simp only [List.length_drop, List.length_cons]
  omega

@[simp] theorem pieces_nil (rules : List Rule) (previous : Option Char) :
    pieces rules previous [] = [] := by
  rw [pieces]

/-- The pieces of a text are the one at its head and those of what is left. -/
theorem pieces_cons (rules : List Rule) (previous : Option Char) (c : Char) (rest : List Char) :
    pieces rules previous (c :: rest) =
      Piece.atHead rules previous c rest ::
        pieces rules (Piece.atHead rules previous c rest).chars.getLast?
          ((c :: rest).drop (Piece.atHead rules previous c rest).width) := by
  rw [pieces]

/-- **The pieces of a text put together are the text.** -/
theorem flatMap_chars_pieces (rules : List Rule) (previous : Option Char) (text : List Char) :
    (pieces rules previous text).flatMap Piece.chars = text := by
  fun_induction pieces rules previous text with
  | case1 => rfl
  | case2 previous c rest piece ih =>
    rw [List.flatMap_cons, ih]
    exact List.prefix_iff_eq_append.mp (Piece.chars_atHead_isPrefix rules previous c rest)

/-! ### What pieces in a row yield -/

/-- The tokens of pieces in a row, the first of them at the given offset. -/
def tokensOf (offset : Nat) : List Piece → List Token
  | [] => []
  | piece :: rest => (piece.token? offset).toList ++ tokensOf (offset + piece.width) rest

/-- The reports on pieces in a row, the first of them at the given offset. -/
def eventsOf (offset : Nat) : List Piece → List Event
  | [] => []
  | piece :: rest => (piece.event? offset).toList ++ eventsOf (offset + piece.width) rest

@[simp] theorem tokensOf_nil (offset : Nat) : tokensOf offset [] = [] := rfl

@[simp] theorem tokensOf_cons (offset : Nat) (piece : Piece) (rest : List Piece) :
    tokensOf offset (piece :: rest) =
      (piece.token? offset).toList ++ tokensOf (offset + piece.width) rest := rfl

@[simp] theorem eventsOf_nil (offset : Nat) : eventsOf offset [] = [] := rfl

@[simp] theorem eventsOf_cons (offset : Nat) (piece : Piece) (rest : List Piece) :
    eventsOf offset (piece :: rest) =
      (piece.event? offset).toList ++ eventsOf (offset + piece.width) rest := rfl

end TokenStream
