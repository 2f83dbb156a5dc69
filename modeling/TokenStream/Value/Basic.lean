import TokenStream.Decimal.Layout
import TokenStream.Text.Integer
import TokenStream.Text.Quoted

/-!
# Values

Data whose shape is not known beforehand: what a serialized token or a setting may hold.

An object is a map from keys to values.  It is kept as a list with the keys in ascending order
and no key twice, so that two objects with the same entries are the same list, and writing an
object with its keys in order is writing the list.

## Main definitions

* `Value` — the seven sorts of values.
* `Value.put`, `Value.ofFields` — objects from entries in any order; a later entry replaces an
  earlier one with the same key.
* `Value.field?` — the entry of an object.
* `Value.typeName` — the name of a sort in messages.
* `Value.isTruthy` — whether a value counts as a yes.
* `Value.display` — a value in messages.
-/

namespace TokenStream

/-- Data of any shape. -/
inductive Value
  /-- The absence of a value. -/
  | null
  /-- A truth value. -/
  | bool (b : Bool)
  /-- An integer of any size. -/
  | int (n : Int)
  /-- A float. -/
  | float (x : Float)
  /-- A text. -/
  | text (s : String)
  /-- Values in a row. -/
  | list (items : List Value)
  /-- Entries in ascending order of their keys. -/
  | object (fields : List (String × Value))
deriving Repr, Inhabited

namespace Value

/-! ### Objects -/

/-- Sets an entry among entries in ascending order. -/
def put (key : String) (value : Value) : List (String × Value) → List (String × Value)
  | [] => [(key, value)]
  | (other, held) :: rest =>
    if key < other then (key, value) :: (other, held) :: rest
    else if key = other then (key, value) :: rest
    else (other, held) :: put key value rest

/-- The object with the given entries; of several with one key, the last. -/
def ofFields (fields : List (String × Value)) : Value :=
  object (fields.foldl (fun sorted field => put field.1 field.2 sorted) [])

/-- The entry of a key. -/
def lookup? (key : String) (fields : List (String × Value)) : Option Value :=
  (fields.find? fun field => field.1 == key).map Prod.snd

/-! ### Sorts -/

/-- The name of a value's sort in messages. -/
def typeName : Value → String
  | null => "NoneType"
  | bool _ => "bool"
  | int _ => "int"
  | float _ => "float"
  | text _ => "str"
  | list _ => "list"
  | object _ => "dict"

/-- Whether a value counts as a yes: zeros, empty things and the absence of a value do not. -/
def isTruthy : Value → Bool
  | null => false
  | bool b => b
  | int n => n != 0
  | float x => !(Binary64.ofFloat x).isZero
  | text s => !s.isEmpty
  | list items => !items.isEmpty
  | object fields => !fields.isEmpty

/-! ### Values in messages -/

mutual

/-- A value as it is shown in messages. -/
def display : Value → List Char
  | null => "None".toList
  | bool true => "True".toList
  | bool false => "False".toList
  | int n => Integer.digits n
  | float x => FloatStyle.display.render x
  | text s => Quoted.encode s.toList
  | list [] => ['[', ']']
  | list (item :: items) => '[' :: display item ++ displayItems items ++ [']']
  | object [] => ['\x7b', '\x7d']
  | object ((key, value) :: fields) =>
    '\x7b' :: Quoted.encode key.toList ++ ':' :: ' ' :: display value ++
      displayFields fields ++ ['\x7d']

/-- The items after the first, each after a comma. -/
def displayItems : List Value → List Char
  | [] => []
  | item :: items => ',' :: ' ' :: display item ++ displayItems items

/-- The entries after the first, each after a comma. -/
def displayFields : List (String × Value) → List Char
  | [] => []
  | (key, value) :: fields =>
    ',' :: ' ' :: Quoted.encode key.toList ++ ':' :: ' ' :: display value ++ displayFields fields

end

end Value

end TokenStream
