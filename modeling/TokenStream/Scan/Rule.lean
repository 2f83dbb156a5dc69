import TokenStream.Keyword
import TokenStream.Scan.Lexeme
import TokenStream.Token.Kind

/-!
# Rules

A rule sorts the lexemes of one form into a kind.  The rules are tried in a fixed order and the
first that recognises something wins, however short: a float is tried before an integer, so that
`3.14` stays in one piece, and the truth values before words, so that `trueish` falls into
`true` and `ish`.

## Main definitions

* `Rule` — the six rules; `Rule.table` has them in the order in which they are tried.
* `Rule.lexeme?` — what a rule recognises at the head of a text.
* `Rule.lexemeAt?` — the same at a position of a text.
* `Rule.firstMatch?` — the first rule of a list that recognises something.
* `Rule.classify` — the kind of a lexeme, reserved words apart from names.

## Main results

* `Rule.lexeme?_isPrefix`, `Rule.lexeme?_ne_nil` — a recognised lexeme is a non-empty start of
  the text.
-/

namespace TokenStream

/-- The forms of lexemes, each of which has a kind. -/
inductive Rule
  /-- Two runs of digits around a point. -/
  | float
  /-- A run of digits. -/
  | integer
  /-- A truth value. -/
  | boolean
  /-- A text in double quotes. -/
  | string
  /-- A character in single quotes. -/
  | char
  /-- A word. -/
  | identifier
deriving DecidableEq, Repr, Inhabited

namespace Rule

/-- The rules in the order in which they are tried. -/
def table : List Rule := [float, integer, boolean, string, char, identifier]

/-- The kind that a rule stands for. -/
def kind : Rule → Token.Kind
  | float => .float
  | integer => .integer
  | boolean => .boolean
  | string => .string
  | char => .char
  | identifier => .identifier

/-- What a rule recognises at the head of a text. -/
def lexeme? : Rule → List Char → Option (List Char)
  | float => Lexeme.float?
  | integer => Lexeme.integer?
  | boolean => Lexeme.boolean?
  | string => Lexeme.string?
  | char => Lexeme.character?
  | identifier => Lexeme.word?

/-- What a rule recognises at a position of a source.  A position before the start stands for
the start, one beyond the end for the end. -/
def lexemeAt? (rule : Rule) (source : String) (position : Int) : Option String :=
  (rule.lexeme? (source.toList.drop position.toNat)).map String.ofList

/-- The first rule that recognises something at the head of a text, with what it recognises. -/
def firstMatch? (rules : List Rule) (text : List Char) : Option (Rule × List Char) :=
  rules.findSome? fun rule => (rule.lexeme? text).map fun lexeme => (rule, lexeme)

/-- The kind of a lexeme that a rule has recognised: a word is a keyword if it is reserved. -/
def classify (rule : Rule) (lexeme : List Char) : Token.Kind :=
  if rule = identifier ∧ isKeyword (String.ofList lexeme) then .keyword else rule.kind

/-- What a rule recognises is what the text starts with. -/
theorem lexeme?_isPrefix {rule : Rule} {text lexeme : List Char}
    (h : rule.lexeme? text = some lexeme) : lexeme <+: text := by
  cases rule with
  | float => exact Lexeme.float?_isPrefix h
  | integer => exact Lexeme.integer?_isPrefix h
  | boolean => exact Lexeme.boolean?_isPrefix h
  | string => exact Lexeme.string?_isPrefix h
  | char => exact Lexeme.character?_isPrefix h
  | identifier => exact Lexeme.word?_isPrefix h

/-- No rule recognises the empty text. -/
theorem lexeme?_ne_nil {rule : Rule} {text lexeme : List Char}
    (h : rule.lexeme? text = some lexeme) : lexeme ≠ [] := by
  cases rule with
  | float => exact Lexeme.float?_ne_nil h
  | integer => exact Lexeme.integer?_ne_nil h
  | boolean => exact Lexeme.boolean?_ne_nil h
  | string => exact Lexeme.string?_ne_nil h
  | char => exact Lexeme.character?_ne_nil h
  | identifier => exact Lexeme.word?_ne_nil h

/-- The first match is a match of one of the rules. -/
theorem mem_of_firstMatch? {rules : List Rule} {text lexeme : List Char} {rule : Rule}
    (h : firstMatch? rules text = some (rule, lexeme)) :
    rule ∈ rules ∧ rule.lexeme? text = some lexeme := by
  obtain ⟨candidate, hmem, h⟩ := List.exists_of_findSome?_eq_some h
  obtain ⟨found, hfound, h⟩ := Option.map_eq_some_iff.mp h
  cases h
  exact ⟨hmem, hfound⟩

end Rule

end TokenStream
