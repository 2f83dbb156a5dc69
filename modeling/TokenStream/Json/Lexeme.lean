import TokenStream.Decimal.Numeral
import TokenStream.Json.SyntaxError
import TokenStream.Text.Hex
import TokenStream.Text.Units
import TokenStream.Value.Basic

/-!
# The lexemes of a serialized text

A text in the serialized form is a row of brackets, commas, colons, texts in quotes and simple
values, with white space between them.  Reading is done in two steps: here the text is cut into
lexemes, each with the text from there on; what they mean together is settled afterwards.  A
lexeme that cannot be read is kept as such: whether it is the first thing wrong with the text
depends on what may stand at its place.

## Main definitions

* `Json.Lexeme` — the lexemes, and the two ways in which there is none.
* `Json.readUnits` — the units of a text up to its closing quote.
* `Json.Lexeme.read` — the lexeme at the head of a text, and what follows it.
* `Json.lexemes` — all the lexemes of a text.

## Main results

* `Json.Lexeme.length_read_lt` — a lexeme takes at least one character.
-/

namespace TokenStream.Json

/-- A lexeme of the serialized form. -/
inductive Lexeme
  /-- The bracket before items. -/
  | openList
  /-- The bracket after items. -/
  | closeList
  /-- The brace before entries. -/
  | openObject
  /-- The brace after entries. -/
  | closeObject
  /-- A comma. -/
  | comma
  /-- A colon. -/
  | colon
  /-- A text in quotes. -/
  | text (s : String)
  /-- A value without parts that is not a text. -/
  | simple (value : Value)
  /-- A text that cannot be read, and where reading it stops. -/
  | broken (stop : Stop)
  /-- A character with which no lexeme starts. -/
  | stray
deriving Repr, Inhabited

/-- White space between lexemes. -/
def isWhitespace (c : Char) : Bool := c == ' ' || c == '\t' || c == '\n' || c == '\r'

/-! ### Texts in quotes -/

/-- The character that a letter after a backslash stands for. -/
def escaped? : Char → Option Char
  | '\x22' => some '\x22'
  | '\\' => some '\\'
  | '/' => some '/'
  | 'b' => some '\x08'
  | 'f' => some '\x0c'
  | 'n' => some '\n'
  | 'r' => some '\r'
  | 't' => some '\t'
  | _ => none

/-- What reading the inside of a text comes to: its units and what follows the closing quote, or
the place where reading stops. -/
abbrev UnitsRead := Except Stop (List Nat × List Char)

/-- Puts a unit in front of those that have been read. -/
def UnitsRead.cons (unit : Nat) (read : UnitsRead) : UnitsRead :=
  read.map fun found => (unit :: found.1, found.2)

theorem UnitsRead.cons_eq_ok {unit : Nat} {read : UnitsRead} {units : List Nat}
    {rest : List Char} :
    read.cons unit = .ok (units, rest) ↔
      ∃ found, read = .ok (found, rest) ∧ units = unit :: found := by
  cases read with
  | error e => simp [cons, Except.map]
  | ok found =>
    simp only [cons, Except.map, Except.ok.injEq, Prod.mk.injEq]
    constructor
    · rintro ⟨rfl, rfl⟩
      exact ⟨found.1, rfl, rfl⟩
    · rintro ⟨units, rfl, rfl⟩
      exact ⟨rfl, rfl⟩

/-- The units of a text from the inside on, up to the closing quote.  If there is none, the fault
lies at the opening quote: `opening` is the text from there on. -/
def readUnits (opening : List Char) : List Char → UnitsRead
  | [] => .error ⟨.unterminated, opening⟩
  | '\x22' :: rest => .ok ([], rest)
  | '\\' :: 'u' :: c₃ :: c₂ :: c₁ :: c₀ :: c :: rest =>
    match Hex.value4? c₃ c₂ c₁ c₀ with
    | some unit => (readUnits opening (c :: rest)).cons unit
    | none => .error ⟨.badUnit, 'u' :: c₃ :: c₂ :: c₁ :: c₀ :: c :: rest⟩
  | '\\' :: 'u' :: rest => .error ⟨.badUnit, 'u' :: rest⟩
  | ['\\'] => .error ⟨.unterminated, opening⟩
  | '\\' :: c :: rest =>
    match escaped? c with
    | some plain => (readUnits opening rest).cons plain.toNat
    | none => .error ⟨.unknownEscape, '\\' :: c :: rest⟩
  | c :: rest =>
    if c.toNat < 0x20 then .error ⟨.controlCharacter, c :: rest⟩
    else (readUnits opening rest).cons c.toNat

/-- What follows the closing quote is not longer than the text. -/
theorem length_of_readUnits {opening text rest : List Char} {units : List Nat}
    (h : readUnits opening text = .ok (units, rest)) : rest.length ≤ text.length := by
  fun_induction readUnits opening text generalizing units with
  | case1 => contradiction
  | case2 tail => cases h; simp
  | case3 c₃ c₂ c₁ c₀ c tail unit hunit ih =>
    obtain ⟨found, hfound, -⟩ := UnitsRead.cons_eq_ok.mp h
    have := ih hfound
    simp only [List.length_cons] at this ⊢
    omega
  | case4 => contradiction
  | case5 => contradiction
  | case6 => contradiction
  | case7 c tail _ _ plain hplain ih =>
    obtain ⟨found, hfound, -⟩ := UnitsRead.cons_eq_ok.mp h
    have := ih hfound
    simp only [List.length_cons]
    omega
  | case8 => contradiction
  | case9 => contradiction
  | case10 c tail _ _ _ _ _ _ ih =>
    obtain ⟨found, hfound, -⟩ := UnitsRead.cons_eq_ok.mp h
    have := ih hfound
    simp only [List.length_cons]
    omega

/-- A text in quotes, from its inside on, and what follows it.  Nothing follows a text that cannot
be read. -/
def Lexeme.readText (inside : List Char) : Lexeme × List Char :=
  match readUnits ('\x22' :: inside) inside with
  | .ok (units, rest) => (.text (String.ofList (Units.decode units)), rest)
  | .error stop => (.broken stop, [])

/-! ### Simple values -/

/-- The words that stand for values. -/
def words : List (List Char × Value) := [
  ("null".toList, .null),
  ("true".toList, .bool true),
  ("false".toList, .bool false),
  ("NaN".toList, .float (0.0 / 0.0)),
  ("Infinity".toList, .float (1.0 / 0.0)),
  ("-Infinity".toList, .float (-1.0 / 0.0))]

/-- The word at the head of a text, with its value. -/
def word? (text : List Char) : Option (List Char × Value) :=
  words.find? fun word => word.1.isPrefixOf text

/-- The value of a numeral: an integer if it is written as one. -/
def numeralValue (numeral : Numeral) : Value :=
  match numeral.toInt? with
  | some n => .int n
  | none => .float numeral.toFloat

/-- A word or a number at the head of a text `c :: rest`, and what follows it. -/
def Lexeme.readSimple (c : Char) (rest : List Char) : Lexeme × List Char :=
  match word? (c :: rest) with
  | some (word, value) => (.simple value, rest.drop (word.length - 1))
  | none =>
    match Numeral.read? (c :: rest) with
    | some (numeral, after) => (.simple (numeralValue numeral), after)
    | none => (.stray, rest)

/-! ### Lexemes -/

/-- The lexeme at the head of a text `c :: rest`, and what follows it. -/
def Lexeme.read (c : Char) (rest : List Char) : Lexeme × List Char :=
  match c with
  | '[' => (.openList, rest)
  | ']' => (.closeList, rest)
  | '\x7b' => (.openObject, rest)
  | '\x7d' => (.closeObject, rest)
  | ',' => (.comma, rest)
  | ':' => (.colon, rest)
  | '\x22' => readText rest
  | c => readSimple c rest

theorem Lexeme.length_readText_le (inside : List Char) :
    (readText inside).2.length ≤ inside.length := by
  unfold readText
  split
  · next h => exact length_of_readUnits h
  · simp

theorem Lexeme.length_readSimple_le (c : Char) (rest : List Char) :
    (readSimple c rest).2.length ≤ rest.length := by
  unfold readSimple
  split
  · simp
  · split
    · next h =>
      have := Numeral.length_of_read? h
      simp only [List.length_cons] at this
      exact Nat.le_of_lt_succ this
    · simp

/-- A lexeme takes at least one character. -/
theorem Lexeme.length_read_lt (c : Char) (rest : List Char) :
    (read c rest).2.length < (c :: rest).length := by
  unfold read
  split <;> simp only [List.length_cons, Nat.lt_succ_self, Nat.lt_succ_iff]
  · exact length_readText_le rest
  · exact length_readSimple_le _ rest

/-- A lexeme with its place. -/
structure PlacedLexeme where
  /-- The text from the lexeme on. -/
  place : List Char
  /-- The lexeme. -/
  lexeme : Lexeme
deriving Repr, Inhabited

/-- The lexemes of a text. -/
def lexemes : List Char → List PlacedLexeme
  | [] => []
  | c :: rest =>
    if isWhitespace c then lexemes rest
    else ⟨c :: rest, (Lexeme.read c rest).1⟩ :: lexemes (Lexeme.read c rest).2
termination_by text => text.length
decreasing_by
  · simp
  · exact Lexeme.length_read_lt c rest

@[simp] theorem lexemes_nil : lexemes [] = [] := by rw [lexemes]

/-- The lexemes of a text are the one at its head, unless that is white space, and those of what
is left. -/
theorem lexemes_cons (c : Char) (rest : List Char) :
    lexemes (c :: rest) =
      if isWhitespace c then lexemes rest
      else ⟨c :: rest, (Lexeme.read c rest).1⟩ :: lexemes (Lexeme.read c rest).2 := by
  rw [lexemes]

end TokenStream.Json
