import TokenStream.Json.Lexeme

/-!
# Reading values

The lexemes of a text are read one after the other.  At each place something is expected: a
value, a key, a colon, or what may follow a value; lists and objects that are still open wait on
a stack.  The first lexeme that is not what is expected is the fault of the text.

## Main definitions

* `Json.Expectation` — what may stand at a place.
* `Json.Frame` — a list or an object that is still open.
* `Json.Progress` — what is expected and what is open.
* `Json.Progress.step` — what one lexeme changes.
* `Json.read` — the value of a text.
-/

namespace TokenStream.Json

/-- What may stand at a place. -/
inductive Expectation
  /-- A value. -/
  | value
  /-- The first item of a list, or its end. -/
  | firstItem
  /-- A key after the given entries, or, directly after the opening brace, the end. -/
  | key (first : Bool) (before : List (String × Value))
  /-- The colon after a key. -/
  | colon (before : List (String × Value)) (key : String)
  /-- What may follow a value. -/
  | following (value : Value)
deriving Repr, Inhabited

/-- A list or an object that is still open. -/
inductive Frame
  /-- A list with the items before the open place, the last of them first. -/
  | items (before : List Value)
  /-- An object with the entries before the open place, and the key of that place. -/
  | fields (before : List (String × Value)) (key : String)
deriving Repr, Inhabited

/-- How far reading has got. -/
structure Progress where
  /-- What may stand at the next place. -/
  expectation : Expectation
  /-- What is still open, the innermost first. -/
  stack : List Frame
deriving Repr, Inhabited

namespace Progress

/-- Reading starts with a value. -/
def start : Progress := ⟨.value, []⟩

/-- The fault if what stands at the next place is not what is expected. -/
def fault (progress : Progress) : Fault :=
  match progress.expectation, progress.stack with
  | .value, _ | .firstItem, _ => .expectedValue
  | .key .., _ => .expectedKey
  | .colon .., _ => .expectedColon
  | .following _, [] => .extraData
  | .following _, _ :: _ => .expectedComma

/-- What the first lexeme of a value changes, if it is one. -/
def open? (stack : List Frame) : Lexeme → Option Progress
  | .openList => some ⟨.firstItem, stack⟩
  | .openObject => some ⟨.key true [], stack⟩
  | .text s => some ⟨.following (.text s), stack⟩
  | .simple value => some ⟨.following value, stack⟩
  | _ => none

/-- What a lexeme changes, if it is one that is expected. -/
def next? (progress : Progress) (lexeme : Lexeme) : Option Progress :=
  match progress.expectation, lexeme, progress.stack with
  | .value, lexeme, stack => open? stack lexeme
  | .firstItem, .closeList, stack => some ⟨.following (.list []), stack⟩
  | .firstItem, lexeme, stack => open? (.items [] :: stack) lexeme
  | .key _ before, .text key, stack => some ⟨.colon before key, stack⟩
  | .key true before, .closeObject, stack => some ⟨.following (.object before), stack⟩
  | .colon before key, .colon, stack => some ⟨.value, .fields before key :: stack⟩
  | .following value, .comma, .items before :: stack =>
    some ⟨.value, .items (value :: before) :: stack⟩
  | .following value, .closeList, .items before :: stack =>
    some ⟨.following (.list (value :: before).reverse), stack⟩
  | .following value, .comma, .fields before key :: stack =>
    some ⟨.key false (Value.put key value before), stack⟩
  | .following value, .closeObject, .fields before key :: stack =>
    some ⟨.following (.object (Value.put key value before)), stack⟩
  | _, _, _ => none

/-- Whether a text in quotes may stand at the next place. -/
def admitsText (progress : Progress) : Bool :=
  match progress.expectation with
  | .value | .firstItem | .key .. => true
  | .colon .. | .following _ => false

/-- What a lexeme changes, or where reading stops.  A text that cannot be read brings a fault of
its own where a text may stand. -/
def step (progress : Progress) (placed : PlacedLexeme) : Except Stop Progress :=
  match progress.next? placed.lexeme, placed.lexeme with
  | some after, _ => .ok after
  | none, .broken stop =>
    if progress.admitsText then .error stop else .error ⟨progress.fault, placed.place⟩
  | none, _ => .error ⟨progress.fault, placed.place⟩

/-- What lexemes in a row change, or where reading stops. -/
def steps (progress : Progress) (placed : List PlacedLexeme) : Except Stop Progress :=
  placed.foldlM step progress

/-- The value that has been read, if nothing is open and nothing else is expected. -/
def result? (progress : Progress) : Option Value :=
  match progress.expectation, progress.stack with
  | .following value, [] => some value
  | _, _ => none

end Progress

/-- The value of a text, or where reading stops. -/
def readChars (text : List Char) : Except Stop Value :=
  if text.head? = some '\uFEFF' then .error ⟨.byteOrderMark, text⟩
  else do
    let progress ← Progress.start.steps (lexemes text)
    match progress.result? with
    | some value => return value
    | none => .error ⟨progress.fault, []⟩

/-- The value of a text, or what is wrong with it. -/
def read (text : String) : Except SyntaxError Value :=
  (readChars text.toList).mapError (SyntaxError.ofStop text.toList)

end TokenStream.Json
