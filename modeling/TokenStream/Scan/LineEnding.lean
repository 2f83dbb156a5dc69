/-!
# Line endings

A line ends with a carriage return, a line feed, or the two together in that order.

## Main definitions

* `LineEnding` — the three forms.
* `LineEnding.chars` — the characters of a form.
* `LineEnding.atHead?` — the line ending with which a text starts.

## Main results

* `LineEnding.chars_isPrefix` — the line ending found at the head is what the text starts with.
-/

namespace TokenStream

/-- The forms in which a source can end a line. -/
inductive LineEnding
  /-- A carriage return and a line feed. -/
  | crlf
  /-- A carriage return with no line feed after it. -/
  | cr
  /-- A line feed. -/
  | lf
deriving DecidableEq, Repr, Inhabited

namespace LineEnding

/-- The characters of a line ending. -/
def chars : LineEnding → List Char
  | crlf => ['\r', '\n']
  | cr => ['\r']
  | lf => ['\n']

/-- The line ending with which a text starts: a carriage return takes the line feed after it
along. -/
def atHead? : List Char → Option LineEnding
  | '\r' :: '\n' :: _ => some crlf
  | '\r' :: _ => some cr
  | '\n' :: _ => some lf
  | _ => none

theorem chars_ne_nil (ending : LineEnding) : ending.chars ≠ [] := by cases ending <;> simp [chars]

/-- The line ending found at the head is what the text starts with. -/
theorem chars_isPrefix {text : List Char} {ending : LineEnding}
    (h : atHead? text = some ending) : ending.chars <+: text := by
  unfold atHead? at h
  split at h <;> simp_all <;> subst h <;> simp [chars]

end LineEnding

end TokenStream
