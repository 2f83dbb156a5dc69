import TokenStream.Proofs.CanonicalForm

/-!
# Documents

Before a text is a value it is a document: an object has its entries in the order of the text, and
a key may come more than once.  A document says with which lexemes it is written, and for which
value it stands.  The value of an object has one entry for each key, which is the last one written.

## Main definitions

* `Json.Document` — texts in the serialized form, with every entry that is written.
* `Json.Document.lexemes`, `Json.Document.value` — how a document is written, what it stands for.
* `Json.Document.last?` — the last of the entries with a key.
* `Json.Document.IsWrittenIn` — a text is the written form of a document.

## Main results

* `Value.lookup?_foldl_put` — of several entries with one key, the last one counts.
* `Json.Document.lookup?_settled` — **the entry of a key in an object is the last one written**.
* `Json.Document.ofParts` — induction on documents.
* `Json.separated_concat` — rows with commas between them, the last one apart.
-/

namespace TokenStream

namespace Value

/-- A value without parts that is not a text. -/
def IsAtomic : Value → Prop
  | null | bool _ | int _ | float _ => True
  | text _ | list _ | object _ => False

/-! ### The last entry of a key -/

variable {key other : String}

theorem lookup?_put_self (key : String) (value : Value) (fields : List (String × Value)) :
    lookup? key (put key value fields) = some value := by
  induction fields with
  | nil => simp [put, lookup?]
  | cons field fields ih =>
    obtain ⟨name, held⟩ := field
    rw [put]
    split
    · simp [lookup?]
    · split
      · simp [lookup?]
      · next hne =>
        rw [lookup?, List.find?_cons_of_neg (by simpa using Ne.symm hne)]
        exact ih

theorem lookup?_put_of_ne (hne : other ≠ key) (value : Value) (fields : List (String × Value)) :
    lookup? other (put key value fields) = lookup? other fields := by
  have hskip : ∀ (held : Value) (rest : List (String × Value)),
      lookup? other ((key, held) :: rest) = lookup? other rest := by
    intro held rest
    rw [lookup?, List.find?_cons_of_neg (by simpa using Ne.symm hne)]
    rfl
  induction fields with
  | nil => exact hskip value []
  | cons field fields ih =>
    obtain ⟨name, held⟩ := field
    rw [put]
    split
    · exact hskip value _
    · split
      · next heq => rw [← heq, hskip, hskip]
      · simp only [lookup?, List.find?_cons] at ih ⊢
        split
        · rfl
        · exact ih

/-- Entries that are set one after the other: the last one with a key counts. -/
theorem lookup?_foldl_put (key : String) (fields before : List (String × Value)) :
    lookup? key (fields.foldl (fun sorted field => put field.1 field.2 sorted) before) =
      (lookup? key fields.reverse).or (lookup? key before) := by
  induction fields generalizing before with
  | nil => rfl
  | cons field fields ih =>
    obtain ⟨name, held⟩ := field
    rw [List.foldl_cons, ih, List.reverse_cons]
    simp only [lookup?, List.find?_append, Option.map_or, Option.or_assoc]
    congr 1
    by_cases hname : name = key
    · subst hname
      simpa [lookup?] using lookup?_put_self name held before
    · have hput := lookup?_put_of_ne (Ne.symm hname) held before
      simpa [lookup?, hname] using hput

end Value

namespace Json

/-! ### Documents -/

/-- A value as it is written. -/
inductive Document
  /-- A word or a number. -/
  | atom (value : Value) (isAtomic : value.IsAtomic)
  /-- A text in quotes. -/
  | text (s : String)
  /-- Items between brackets. -/
  | list (items : List Document)
  /-- Entries between braces, in the order of the text, whether or not their keys are different. -/
  | object (entries : List (String × Document))

/-- Rows of lexemes with a comma between any two of them. -/
def separated : List (List Lexeme) → List Lexeme
  | [] => []
  | [row] => row
  | row :: next :: rows => row ++ .comma :: separated (next :: rows)

namespace Document

mutual

/-- The lexemes that a document is written with. -/
def lexemes : Document → List Lexeme
  | .atom value _ => [.simple value]
  | .text s => [.text s]
  | .list items => .openList :: separated (itemRows items) ++ [.closeList]
  | .object entries => .openObject :: separated (entryRows entries) ++ [.closeObject]

/-- The lexemes of each of several items. -/
def itemRows : List Document → List (List Lexeme)
  | [] => []
  | item :: items => item.lexemes :: itemRows items

/-- The lexemes of each of several entries. -/
def entryRows : List (String × Document) → List (List Lexeme)
  | [] => []
  | (key, document) :: entries => (.text key :: .colon :: document.lexemes) :: entryRows entries

end

mutual

/-- The value that a document stands for. -/
def value : Document → Value
  | .atom value _ => value
  | .text s => .text s
  | .list items => .list (itemValues items)
  | .object entries => .ofFields (entryValues entries)

/-- The values of items. -/
def itemValues : List Document → List Value
  | [] => []
  | item :: items => item.value :: itemValues items

/-- The keys and the values of entries. -/
def entryValues : List (String × Document) → List (String × Value)
  | [] => []
  | (key, document) :: entries => (key, document.value) :: entryValues entries

end

/-- The last of the entries with a key. -/
def last? (key : String) (entries : List (String × Document)) : Option Document :=
  (entries.reverse.find? fun entry => entry.1 == key).map Prod.snd

/-- A text is the written form of a document: white space apart, it has the lexemes of the document
and no others. -/
structure IsWrittenIn (document : Document) (text : String) : Prop where
  /-- No byte order mark comes first. -/
  unmarked : text.toList.head? ≠ some '\uFEFF'
  /-- The lexemes are those of the document. -/
  lexemes_eq : (Json.lexemes text.toList).map PlacedLexeme.lexeme = document.lexemes

theorem itemRows_eq_map (items : List Document) : itemRows items = items.map lexemes := by
  induction items with
  | nil => rfl
  | cons item items ih => rw [itemRows, ih, List.map_cons]

theorem itemValues_eq_map (items : List Document) : itemValues items = items.map value := by
  induction items with
  | nil => rfl
  | cons item items ih => rw [itemValues, ih, List.map_cons]

/-- The lexemes of an entry. -/
def entryLexemes (entry : String × Document) : List Lexeme :=
  .text entry.1 :: .colon :: entry.2.lexemes

/-- The key and the value of an entry. -/
def entryValue (entry : String × Document) : String × Value := (entry.1, entry.2.value)

theorem entryRows_eq_map (entries : List (String × Document)) :
    entryRows entries = entries.map entryLexemes := by
  induction entries with
  | nil => rfl
  | cons entry entries ih => rw [entryRows, ih, List.map_cons, entryLexemes]

theorem entryValues_eq_map (entries : List (String × Document)) :
    entryValues entries = entries.map entryValue := by
  induction entries with
  | nil => rfl
  | cons entry entries ih => rw [entryValues, ih, List.map_cons, entryValue]

@[simp] theorem lexemes_list (items : List Document) :
    lexemes (.list items) = .openList :: separated (items.map lexemes) ++ [.closeList] := by
  rw [lexemes, itemRows_eq_map]

@[simp] theorem lexemes_object (entries : List (String × Document)) :
    lexemes (.object entries) =
      .openObject :: separated (entries.map entryLexemes) ++ [.closeObject] := by
  rw [lexemes, entryRows_eq_map]

@[simp] theorem value_list (items : List Document) :
    value (.list items) = .list (items.map value) := by
  rw [value, itemValues_eq_map]

/-- The entries of an object as they are set one after the other. -/
def settled (entries : List (String × Document)) : List (String × Value) :=
  (entries.map entryValue).foldl (fun sorted field => Value.put field.1 field.2 sorted) []

@[simp] theorem value_object (entries : List (String × Document)) :
    value (.object entries) = .object (settled entries) := by
  rw [value, entryValues_eq_map]
  rfl

theorem settled_concat (entries : List (String × Document)) (key : String)
    (document : Document) :
    settled (entries ++ [(key, document)]) = Value.put key document.value (settled entries) := by
  simp [settled, entryValue]

/-- The entry of a key in an object is the last one that is written. -/
theorem lookup?_settled (key : String) (entries : List (String × Document)) :
    Value.lookup? key (settled entries) = (last? key entries).map value := by
  rw [settled, Value.lookup?_foldl_put, last?, ← List.map_reverse, Value.lookup?,
    List.find?_map, Option.map_map, Option.map_map]
  simp [Value.lookup?, Function.comp_def, entryValue]

/-- Induction on documents: a list or an object may use what holds of its parts. -/
@[induction_eliminator]
theorem ofParts {motive : Document → Prop}
    (atom : ∀ value isAtomic, motive (.atom value isAtomic)) (text : ∀ s, motive (.text s))
    (list : ∀ items, (∀ item ∈ items, motive item) → motive (.list items))
    (object : ∀ entries, (∀ entry ∈ entries, motive entry.2) → motive (.object entries)) :
    ∀ document, motive document
  | .atom value isAtomic => atom value isAtomic
  | .text s => text s
  | .list items => list items fun item _ => ofParts atom text list object item
  | .object entries => object entries fun entry _ => ofParts atom text list object entry.2
termination_by document => sizeOf document
decreasing_by
  · next hitem =>
    have := List.sizeOf_lt_of_mem hitem
    simp only [Document.list.sizeOf_spec]
    omega
  · next hentry =>
    have := List.sizeOf_lt_of_mem hentry
    obtain ⟨key, document⟩ := entry
    simp only [Document.object.sizeOf_spec, Prod.mk.sizeOf_spec] at this ⊢
    omega

end Document

/-! ### Rows of lexemes -/

theorem separated_cons_cons (row next : List Lexeme) (rows : List (List Lexeme)) :
    separated (row :: next :: rows) = row ++ .comma :: separated (next :: rows) := rfl

/-- All rows but the last have a comma behind them. -/
theorem separated_concat (rows : List (List Lexeme)) (row : List Lexeme) :
    separated (rows ++ [row]) = rows.flatMap (· ++ [.comma]) ++ row := by
  induction rows with
  | nil => rfl
  | cons first rows ih =>
    cases rows with
    | nil => simp [separated]
    | cons next rows =>
      rw [List.cons_append, List.cons_append, separated_cons_cons, ← List.cons_append, ih]
      simp

end Json

end TokenStream
