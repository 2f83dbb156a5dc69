import TokenStream.Text.Hex
import TokenStream.Text.Units
import TokenStream.Value.Basic

/-!
# Writing values

The written form of a value uses printable ASCII only: every other character stands in an
escape.  Without an indent the form is one line with a space after each comma and colon.  With
one, each item and each entry has a line of its own, indented by that many spaces for each list
or object around it.

## Main definitions

* `Json.escape` — one character of a text.
* `Json.Indent` — whether and how far lines are indented.
* `Json.writeChars` — a value at a depth.
* `Json.write` — the written form of a value.
-/

namespace TokenStream.Json

/-! ### Texts -/

/-- The escapes that have a letter, and the two characters that a backslash must protect. -/
def letterEscape? : Char → Option Char
  | '\x22' => some '\x22'
  | '\\' => some '\\'
  | '\n' => some 'n'
  | '\r' => some 'r'
  | '\t' => some 't'
  | '\x0c' => some 'f'
  | '\x08' => some 'b'
  | _ => none

/-- A character as it stands inside a written text. -/
def escape (c : Char) : List Char :=
  match letterEscape? c with
  | some letter => ['\\', letter]
  | none =>
    if ' ' ≤ c ∧ c ≤ '~' then [c]
    else (Units.encode c).flatMap fun unit => '\\' :: 'u' :: Hex.digits 4 unit

/-- A text in its quotes. -/
def writeText (s : String) : List Char := '\x22' :: s.toList.flatMap escape ++ ['\x22']

/-! ### Lines -/

/-- How far the lines inside a list or an object are indented; nothing if it stays on one line.
A negative indent is no indent, but lines are broken. -/
abbrev Indent := Option Int

/-- A line break before what stands at a depth. -/
def lineBreak (depth : Nat) : Indent → List Char
  | none => []
  | some width => '\n' :: List.replicate (width.toNat * depth) ' '

/-- What stands between two items or entries at a depth. -/
def separator (depth : Nat) : Indent → List Char
  | none => [',', ' ']
  | some width => ',' :: lineBreak depth (some width)

/-! ### Values -/

/-- Floats are written as in messages, but for what is no finite number. -/
def floatStyle : FloatStyle := { FloatStyle.display with nan := "NaN", infinity := "Infinity" }

mutual

/-- A value at a depth. -/
def writeChars (indent : Indent) (depth : Nat) : Value → List Char
  | .null => ['n', 'u', 'l', 'l']
  | .bool true => ['t', 'r', 'u', 'e']
  | .bool false => ['f', 'a', 'l', 's', 'e']
  | .int n => Integer.digits n
  | .float x => floatStyle.render x
  | .text s => writeText s
  | .list [] => ['[', ']']
  | .list (item :: items) =>
    '[' :: lineBreak (depth + 1) indent ++ writeChars indent (depth + 1) item ++
      writeItems indent (depth + 1) items ++ lineBreak depth indent ++ [']']
  | .object [] => ['\x7b', '\x7d']
  | .object ((key, value) :: fields) =>
    '\x7b' :: lineBreak (depth + 1) indent ++ writeText key ++ ':' :: ' ' ::
      writeChars indent (depth + 1) value ++ writeFields indent (depth + 1) fields ++
      lineBreak depth indent ++ ['\x7d']

/-- The items after the first. -/
def writeItems (indent : Indent) (depth : Nat) : List Value → List Char
  | [] => []
  | item :: items =>
    separator depth indent ++ writeChars indent depth item ++ writeItems indent depth items

/-- The entries after the first. -/
def writeFields (indent : Indent) (depth : Nat) : List (String × Value) → List Char
  | [] => []
  | (key, value) :: fields =>
    separator depth indent ++ writeText key ++ ':' :: ' ' :: writeChars indent depth value ++
      writeFields indent depth fields

end

/-- The written form of a value. -/
def write (indent : Indent) (value : Value) : String := String.ofList (writeChars indent 0 value)

end TokenStream.Json
