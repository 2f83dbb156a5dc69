import TokenStream.Text.Integer

/-!
# Syntax errors

What can be wrong with a serialized text, and where.  A place is counted in characters from the
start of the text; a message gives it also as line and column, both counted from one.

## Main definitions

* `Json.Fault` — what is wrong, and `Json.Fault.message` — in words.
* `Json.Stop` — a fault, and what is left of the text where it is found.
* `Json.SyntaxError` — a fault with its place in the text.
* `Json.lineAt`, `Json.columnAt` — a place as line and column.
-/

namespace TokenStream.Json

/-- What can be wrong with a serialized text. -/
inductive Fault
  /-- The text starts with a byte order mark. -/
  | byteOrderMark
  /-- No value starts where one must. -/
  | expectedValue
  /-- Something follows the value. -/
  | extraData
  /-- An item or an entry is followed neither by a comma nor by the closing bracket. -/
  | expectedComma
  /-- No key starts where one must. -/
  | expectedKey
  /-- A key is not followed by a colon. -/
  | expectedColon
  /-- A text holds a control character. -/
  | controlCharacter
  /-- A text is not closed. -/
  | unterminated
  /-- A backslash is followed by a character that is no escape. -/
  | unknownEscape
  /-- A numeric escape does not have four digits and a character after them. -/
  | badUnit
deriving DecidableEq, Repr, Inhabited

/-- A fault in words. -/
def Fault.message : Fault → String
  | byteOrderMark => "Unexpected UTF-8 BOM (decode using utf-8-sig)"
  | expectedValue => "Expecting value"
  | extraData => "Extra data"
  | expectedComma => "Expecting ',' delimiter"
  | expectedKey => "Expecting property name enclosed in double quotes"
  | expectedColon => "Expecting ':' delimiter"
  | controlCharacter => "Invalid control character at"
  | unterminated => "Unterminated string starting at"
  | unknownEscape => "Invalid \\escape"
  | badUnit => "Invalid \\uXXXX escape"

/-- A fault, and what is left of the text where it is found. -/
structure Stop where
  /-- What is wrong. -/
  fault : Fault
  /-- The text from the place of the fault on. -/
  rest : List Char
deriving DecidableEq, Repr, Inhabited

/-- The line of a place: one more than the line feeds before it. -/
def lineAt (text : List Char) (position : Nat) : Nat :=
  (text.take position).count '\n' + 1

/-- The column of a place: one more than the characters between the last line feed before it and
the place. -/
def columnAt (text : List Char) (position : Nat) : Nat :=
  ((text.take position).reverse.takeWhile (· != '\n')).length + 1

/-- A fault with its place. -/
structure SyntaxError where
  /-- What is wrong. -/
  fault : Fault
  /-- How many characters stand before the place. -/
  position : Nat
  /-- The line of the place. -/
  line : Nat
  /-- The column of the place. -/
  column : Nat
deriving DecidableEq, Repr, Inhabited

namespace SyntaxError

/-- The error of a text in which reading has stopped. -/
def ofStop (text : List Char) (stop : Stop) : SyntaxError :=
  let position := text.length - stop.rest.length
  ⟨stop.fault, position, lineAt text position, columnAt text position⟩

/-- The error in words. -/
def message (error : SyntaxError) : String :=
  error.fault.message ++ ": line " ++ Integer.text error.line ++ " column " ++
    Integer.text error.column ++ " (char " ++ Integer.text error.position ++ ")"

end SyntaxError

end TokenStream.Json
