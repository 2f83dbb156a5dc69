import TokenStream.Json.Read
import TokenStream.Json.Write
import TokenStream.Token.Basic

/-!
# Serialized tokens

A token is serialized as an object with its kind, its text and its offset.  Reading checks the
kind and that the other two are there, but not what they are: a record keeps whatever values it
finds.  A list of tokens is serialized as the list of their objects, in the form of
`Json.write`.

## Main definitions

* `TokenRecord` — what is read back for one token.
* `Token.toValue`, `TokenRecord.toValue` — the object of a token and of a record.
* `TokenRecord.ofValue` — the record of an object, or the `RecordFault` that forbids one.
* `TokenRecord.toToken?` — the token that a record stands for, if its fields have the right
  sorts.
* `serialize`, `deserialize` — tokens to text, and text to records.
* `FaultClass` — the class of a fault, by which a caller tells what went wrong.
-/

namespace TokenStream

/-- The classes of faults that a caller can tell apart. -/
inductive FaultClass
  /-- A value is not what it should be. -/
  | valueError
  /-- A text cannot be read, which is a special case of a value that is not what it should be. -/
  | decodeError
  /-- A value is of a sort that an operation does not take. -/
  | typeError
deriving DecidableEq, Repr, Inhabited

namespace FaultClass

/-- The name of a class. -/
def name : FaultClass → String
  | valueError => "ValueError"
  | decodeError => "JSONDecodeError"
  | typeError => "TypeError"

/-- Whether faults of a class are values that are not what they should be, in general or as a
special case. -/
def isValueError : FaultClass → Bool
  | valueError | decodeError => true
  | typeError => false

end FaultClass

/-- What is read back for one token. -/
structure TokenRecord where
  /-- The kind of the token. -/
  kind : Token.Kind
  /-- What stands in the place of the text. -/
  text : Value
  /-- What stands in the place of the offset. -/
  offset : Value
deriving Repr, Inhabited

/-- Why a value is no serialized token. -/
inductive RecordFault
  /-- The value is no object but of the named sort. -/
  | notObject (typeName : String)
  /-- There is no kind, or a null in its place. -/
  | missingKind
  /-- The kind is a list or an object, as named, and cannot even be looked up. -/
  | compoundKind (typeName : String)
  /-- The kind is not the name of one. -/
  | unknownKind (value : Value)
  /-- The named field is missing. -/
  | missingField (name : String)
deriving Repr, Inhabited

/-- The fault in words. -/
def RecordFault.message : RecordFault → String
  | notObject typeName => "Expected a token object, got " ++ typeName
  | missingKind => "Missing 'kind' field in serialized token"
  | compoundKind typeName => "unhashable type: " ++ quoted typeName
  | unknownKind value => "Unknown token kind: " ++ String.ofList value.display
  | missingField name => "Missing " ++ quoted name ++ " field in serialized token"

/-- The class of the fault: only a kind that cannot be looked up is of a class of its own. -/
def RecordFault.faultClass : RecordFault → FaultClass
  | compoundKind _ => .typeError
  | notObject _ | missingKind | unknownKind _ | missingField _ => .valueError

/-! ### From tokens to values -/

/-- A token as a record. -/
def Token.toRecord (token : Token) : TokenRecord :=
  ⟨token.kind, .text token.text, .int token.offset⟩

/-- The object of a record. -/
def TokenRecord.toValue (record : TokenRecord) : Value :=
  .object [("kind", .text record.kind.name), ("offset", record.offset), ("text", record.text)]

/-- The object of a token. -/
def Token.toValue (token : Token) : Value := token.toRecord.toValue

/-- The serialized form of records. -/
def serializeRecords (indent : Json.Indent) (records : List TokenRecord) : String :=
  Json.write indent (.list (records.map TokenRecord.toValue))

/-- The serialized form of tokens. -/
def serialize (indent : Json.Indent) (tokens : List Token) : String :=
  serializeRecords indent (tokens.map Token.toRecord)

/-! ### From values to tokens -/

/-- The kind that a value names. -/
def Token.Kind.ofValue : Value → Except RecordFault Token.Kind
  | .null => .error .missingKind
  | .list items => .error (.compoundKind (Value.list items).typeName)
  | .object fields => .error (.compoundKind (Value.object fields).typeName)
  | .text name =>
    match Token.Kind.ofName? name with
    | some kind => .ok kind
    | none => .error (.unknownKind (.text name))
  | value => .error (.unknownKind value)

namespace TokenRecord

/-- A field that must be there. -/
def requiredField (fields : List (String × Value)) (name : String) : Except RecordFault Value :=
  match Value.lookup? name fields with
  | some value => .ok value
  | none => .error (.missingField name)

/-- The record of a serialized token.  The kind is checked first, then the text is looked up,
then the offset. -/
def ofValue : Value → Except RecordFault TokenRecord
  | .object fields => do
    let kind ← Token.Kind.ofValue ((Value.lookup? "kind" fields).getD .null)
    let text ← requiredField fields "text"
    let offset ← requiredField fields "offset"
    return ⟨kind, text, offset⟩
  | value => .error (.notObject value.typeName)

/-- The token that a record stands for, if its text is a text and its offset an integer. -/
def toToken? (record : TokenRecord) : Option Token :=
  match record.text, record.offset with
  | .text text, .int offset => some ⟨record.kind, text, offset⟩
  | _, _ => none

end TokenRecord

/-- Why a text is no serialized list of tokens. -/
inductive ReadFault
  /-- The text cannot be read. -/
  | malformed (error : Json.SyntaxError)
  /-- The value is no list but of the named sort. -/
  | notList (typeName : String)
  /-- An item is no serialized token. -/
  | item (fault : RecordFault)
deriving Repr, Inhabited

/-- The fault in words. -/
def ReadFault.message : ReadFault → String
  | malformed error => error.message
  | notList typeName => "Expected a JSON array of tokens, got " ++ typeName
  | item fault => fault.message

/-- The class of the fault. -/
def ReadFault.faultClass : ReadFault → FaultClass
  | malformed _ => .decodeError
  | notList _ => .valueError
  | item fault => fault.faultClass

/-- The records of items in a row; the first fault counts. -/
def recordsOfValues (items : List Value) : Except RecordFault (List TokenRecord) :=
  items.mapM TokenRecord.ofValue

/-- The records of a serialized list of tokens. -/
def deserialize (text : String) : Except ReadFault (List TokenRecord) :=
  match Json.read text with
  | .error error => .error (.malformed error)
  | .ok (.list items) => (recordsOfValues items).mapError .item
  | .ok value => .error (.notList value.typeName)

end TokenStream
