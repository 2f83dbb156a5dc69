/-!
# Kinds of tokens

The nine kinds into which a scan sorts what it finds.  The list is closed: what no rule
recognises has a kind of its own.

## Main definitions

* `Token.Kind` — the nine kinds.
* `Token.Kind.all` — the kinds in their published order.
* `Token.Kind.name`, `Token.Kind.ofName?` — the written form of a kind, and its inverse.
-/

namespace TokenStream.Token

/-- What sort of thing a token is. -/
inductive Kind
  /-- A reserved word. -/
  | keyword
  /-- A run of decimal digits. -/
  | integer
  /-- Two runs of decimal digits with a point between them. -/
  | float
  /-- One of the two truth values. -/
  | boolean
  /-- A text in double quotes. -/
  | string
  /-- A character in single quotes. -/
  | char
  /-- A name that is not reserved. -/
  | identifier
  /-- A line ending, whatever its form in the source. -/
  | endOfLine
  /-- One character that no rule recognises. -/
  | unknown
deriving DecidableEq, Repr, Inhabited

namespace Kind

/-- The kinds in their published order. -/
def all : List Kind :=
  [keyword, integer, float, boolean, string, char, identifier, endOfLine, unknown]

/-- The written form of a kind. -/
def name : Kind → String
  | keyword => "KEYWORD"
  | integer => "INTEGER"
  | float => "FLOAT"
  | boolean => "BOOLEAN"
  | string => "STRING"
  | char => "CHAR"
  | identifier => "IDENTIFIER"
  | endOfLine => "END_OF_LINE"
  | unknown => "UNKNOWN"

/-- The kind with a given written form. -/
def ofName? (text : String) : Option Kind := all.find? fun kind => kind.name == text

/-- Reading a written kind gives the kind back. -/
@[simp] theorem ofName?_name (kind : Kind) : ofName? kind.name = some kind := by
  cases kind <;> decide

end Kind

end TokenStream.Token
