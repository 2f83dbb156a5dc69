import Mathlib.Data.List.Forall2
import TokenStream.Proofs.ReadDocuments

/-!
# Objects that serialize tokens

Reading records looks at three keys of each item and at nothing else: the kind must be the name of a
kind, and the text and the offset must be there, whatever they are.  Other keys have no say, and of
several entries with one key the last one counts.  Where an item is no serialized token, the fault
is the first one in a fixed order; and where a list has several such items, it is the fault of the
first of them, whatever comes behind.

## Main definitions

* `Json.Document.StandsFor` — an item is the serialized form of a record.
* `Json.Document.HasFault` — the fault of an item that is not.
* `Json.Document.Determines` — what reading records from a document comes to.

## Main results

* `Json.Document.standsFor_or_hasFault` — every item is one or the other.
* `recordsOfValues_eq_ok_iff`, `recordsOfValues_eq_error_iff` — records one by one, and the first
  fault.
* `deserialize_determined` — **a text is read as records exactly if it is a list of token objects,
  and otherwise has the first fault of the first item that is none**.
-/

namespace TokenStream

/-- A list or an object. -/
def Value.IsCompound : Value → Prop
  | list _ | object _ => True
  | null | bool _ | int _ | float _ | text _ => False

/-! ### Kinds -/

namespace Token.Kind

theorem ofValue_name (kind : Token.Kind) : ofValue (.text kind.name) = .ok kind := by
  simp only [ofValue, ofName?_name]

theorem name_of_ofName? {text : String} {kind : Token.Kind} (h : ofName? text = some kind) :
    kind.name = text := by
  have hname := List.find?_some h
  exact eq_of_beq hname

theorem ofValue_of_isCompound {value : Value} (h : value.IsCompound) :
    ofValue value = .error (.compoundKind value.typeName) := by
  cases value with
  | list items => rfl
  | object fields => rfl
  | _ => contradiction

/-- A value that is neither missing nor compound nor the name of a kind is an unknown kind. -/
theorem ofValue_of_unnamed {value : Value} (hnull : value ≠ .null) (hcompound : ¬ value.IsCompound)
    (hname : ∀ kind : Token.Kind, value ≠ .text kind.name) :
    ofValue value = .error (.unknownKind value) := by
  cases value with
  | null => contradiction
  | list items => exact absurd trivial hcompound
  | object fields => exact absurd trivial hcompound
  | text name =>
    cases hkind : ofName? name with
    | none => simp only [ofValue, hkind]
    | some kind => exact absurd (congrArg Value.text (name_of_ofName? hkind).symm) (hname kind)
  | _ => rfl

end Token.Kind

/-! ### Items -/

namespace Json.Document

/-- A document is the serialized form of a record: an object in which the last kind names the kind
of the record, and the last text and the last offset stand for what the record has in their places.
-/
inductive StandsFor : Document → TokenRecord → Prop
  | object {entries : List (String × Document)} {kind : Token.Kind} {text offset : Document}
      (hkind : last? "kind" entries = some (.text kind.name))
      (htext : last? "text" entries = some text)
      (hoffset : last? "offset" entries = some offset) :
      StandsFor (.object entries) ⟨kind, text.value, offset.value⟩

/-- The fault of a document that is no serialized token.  Each fault counts only where those before
it do not apply. -/
inductive HasFault : Document → RecordFault → Prop
  /-- The document is no object. -/
  | notObject {document : Document} (h : ∀ entries, document ≠ .object entries) :
      HasFault document (.notObject document.value.typeName)
  /-- There is no kind, or the last one is a null. -/
  | missingKind {entries : List (String × Document)}
      (h : ∀ kind ∈ last? "kind" entries, kind.value = .null) :
      HasFault (.object entries) .missingKind
  /-- The kind is a list or an object, and so not the name of one. -/
  | compoundKind {entries : List (String × Document)} {kind : Document}
      (hkind : last? "kind" entries = some kind) (h : kind.value.IsCompound) :
      HasFault (.object entries) (.compoundKind kind.value.typeName)
  /-- The kind is another value that is not the name of one. -/
  | unknownKind {entries : List (String × Document)} {kind : Document}
      (hkind : last? "kind" entries = some kind) (hnull : kind.value ≠ .null)
      (hcompound : ¬ kind.value.IsCompound)
      (hname : ∀ name : Token.Kind, kind.value ≠ .text name.name) :
      HasFault (.object entries) (.unknownKind kind.value)
  /-- There is no text. -/
  | missingText {entries : List (String × Document)} {kind : Token.Kind}
      (hkind : last? "kind" entries = some (.text kind.name))
      (htext : last? "text" entries = none) :
      HasFault (.object entries) (.missingField "text")
  /-- There is no offset. -/
  | missingOffset {entries : List (String × Document)} {kind : Token.Kind} {text : Document}
      (hkind : last? "kind" entries = some (.text kind.name))
      (htext : last? "text" entries = some text) (hoffset : last? "offset" entries = none) :
      HasFault (.object entries) (.missingField "offset")

/-- Only a text in quotes stands for a text. -/
theorem eq_text_of_value {document : Document} {s : String} (h : document.value = .text s) :
    document = .text s := by
  cases document with
  | atom held isAtomic =>
    rw [value] at h
    subst h
    contradiction
  | text t => cases h; rfl
  | list items => rw [value_list] at h; contradiction
  | object entries => rw [value_object] at h; contradiction

section Lookups

variable {entries : List (String × Document)}

/-- What is looked up in an object is the last entry of the key. -/
theorem requiredField_settled (name : String) :
    TokenRecord.requiredField (settled entries) name =
      match last? name entries with
      | some document => .ok document.value
      | none => .error (.missingField name) := by
  rw [TokenRecord.requiredField, lookup?_settled]
  cases last? name entries <;> rfl

/-- The kind that an object names is that of its last entry for it. -/
theorem ofValue_object :
    TokenRecord.ofValue (object entries).value =
      (do
        let kind ← Token.Kind.ofValue (((last? "kind" entries).map value).getD .null)
        let text ← TokenRecord.requiredField (settled entries) "text"
        let offset ← TokenRecord.requiredField (settled entries) "offset"
        return ⟨kind, text, offset⟩) := by
  rw [value_object, TokenRecord.ofValue, lookup?_settled]

end Lookups

variable {document : Document} {record : TokenRecord} {fault : RecordFault}

theorem StandsFor.ofValue_eq (h : document.StandsFor record) :
    TokenRecord.ofValue document.value = .ok record := by
  cases h with
  | @object entries kind text offset hkind htext hoffset =>
    rw [ofValue_object, requiredField_settled, requiredField_settled, hkind, htext, hoffset]
    simp only [Option.map_some, Option.getD_some, value, Token.Kind.ofValue_name]
    rfl

theorem HasFault.ofValue_eq (h : document.HasFault fault) :
    TokenRecord.ofValue document.value = .error fault := by
  cases h with
  | notObject h =>
    cases document with
    | atom held isAtomic =>
      cases held with
      | object fields => contradiction
      | _ => rfl
    | text s => rfl
    | list items => rw [value_list]; rfl
    | object entries => exact absurd rfl (h entries)
  | @missingKind entries h =>
    have hnull : ((last? "kind" entries).map value).getD .null = .null := by
      cases hkind : last? "kind" entries with
      | none => rfl
      | some kind => exact h kind hkind
    rw [ofValue_object, hnull]
    rfl
  | compoundKind hkind h =>
    rw [ofValue_object, hkind, Option.map_some, Option.getD_some,
      Token.Kind.ofValue_of_isCompound h]
    rfl
  | unknownKind hkind hnull hcompound hname =>
    rw [ofValue_object, hkind, Option.map_some, Option.getD_some,
      Token.Kind.ofValue_of_unnamed hnull hcompound hname]
    rfl
  | missingText hkind htext =>
    rw [ofValue_object, requiredField_settled, hkind, htext]
    simp only [Option.map_some, Option.getD_some, value, Token.Kind.ofValue_name]
    rfl
  | missingOffset hkind htext hoffset =>
    rw [ofValue_object, requiredField_settled, requiredField_settled, hkind, htext, hoffset]
    simp only [Option.map_some, Option.getD_some, value, Token.Kind.ofValue_name]
    rfl

/-- Every document is a serialized token or has a fault. -/
theorem standsFor_or_hasFault (document : Document) :
    (∃ record, document.StandsFor record) ∨ ∃ fault, document.HasFault fault := by
  cases document with
  | object entries =>
    cases hkind : last? "kind" entries with
    | none => exact .inr ⟨_, .missingKind (by simp [hkind])⟩
    | some kind =>
      by_cases hnull : kind.value = .null
      · exact .inr ⟨_, .missingKind (by simp [hkind, hnull])⟩
      by_cases hcompound : kind.value.IsCompound
      · exact .inr ⟨_, .compoundKind hkind hcompound⟩
      by_cases hname : ∃ name : Token.Kind, kind.value = .text name.name
      · obtain ⟨name, hname⟩ := hname
        rw [eq_text_of_value hname] at hkind
        cases htext : last? "text" entries with
        | none => exact .inr ⟨_, .missingText hkind htext⟩
        | some text =>
          cases hoffset : last? "offset" entries with
          | none => exact .inr ⟨_, .missingOffset hkind htext hoffset⟩
          | some offset => exact .inl ⟨_, .object hkind htext hoffset⟩
      · exact .inr ⟨_, .unknownKind hkind hnull hcompound (not_exists.mp hname)⟩
  | _ => exact .inr ⟨_, .notObject (by simp)⟩

theorem ofValue_eq_ok_iff :
    TokenRecord.ofValue document.value = .ok record ↔ document.StandsFor record := by
  refine ⟨fun h => ?_, StandsFor.ofValue_eq⟩
  rcases standsFor_or_hasFault document with ⟨found, hfound⟩ | ⟨fault, hfault⟩
  · rw [hfound.ofValue_eq, Except.ok.injEq] at h
    exact h ▸ hfound
  · rw [hfault.ofValue_eq] at h
    contradiction

theorem ofValue_eq_error_iff :
    TokenRecord.ofValue document.value = .error fault ↔ document.HasFault fault := by
  refine ⟨fun h => ?_, HasFault.ofValue_eq⟩
  rcases standsFor_or_hasFault document with ⟨record, hrecord⟩ | ⟨found, hfound⟩
  · rw [hrecord.ofValue_eq] at h
    contradiction
  · rw [hfound.ofValue_eq, Except.error.injEq] at h
    exact h ▸ hfound

end Json.Document

/-! ### Lists of items -/

/-- Items in a row have records exactly if each of them has one. -/
theorem recordsOfValues_eq_ok_iff {items : List Value} {records : List TokenRecord} :
    recordsOfValues items = .ok records ↔
      List.Forall₂ (fun item record => TokenRecord.ofValue item = .ok record) items records := by
  unfold recordsOfValues
  induction items generalizing records with
  | nil => cases records <;> simp [pure, Except.pure]
  | cons item items ih =>
    rw [List.mapM_cons]
    cases hitem : TokenRecord.ofValue item with
    | error fault => cases records <;> simp [bind, Except.bind, hitem]
    | ok record =>
      cases hitems : items.mapM TokenRecord.ofValue with
      | error fault => cases records <;> simp [bind, Except.bind, ← ih, hitem, hitems]
      | ok found =>
        cases records <;> simp [bind, Except.bind, pure, Except.pure, ← ih, hitem, hitems]

/-- Items in a row whose first one has a record have the fault of the others. -/
theorem recordsOfValues_cons_eq_error_iff {item : Value} {items : List Value}
    {record : TokenRecord} {fault : RecordFault} (hitem : TokenRecord.ofValue item = .ok record) :
    recordsOfValues (item :: items) = .error fault ↔ recordsOfValues items = .error fault := by
  simp only [recordsOfValues, List.mapM_cons, hitem]
  cases items.mapM TokenRecord.ofValue <;> simp [bind, Except.bind, pure, Except.pure]

/-- The fault of items in a row is that of the first one that has no record. -/
theorem recordsOfValues_eq_error_iff {items : List Value} {fault : RecordFault} :
    recordsOfValues items = .error fault ↔
      ∃ before item behind, items = before ++ item :: behind ∧
        (∀ other ∈ before, (TokenRecord.ofValue other).isOk) ∧
          TokenRecord.ofValue item = .error fault := by
  induction items with
  | nil => simp [recordsOfValues, pure, Except.pure]
  | cons first items ih =>
    cases hfirst : TokenRecord.ofValue first with
    | error found =>
      have hrecords : recordsOfValues (first :: items) = .error found := by
        rw [recordsOfValues, List.mapM_cons, hfirst]
        rfl
      rw [hrecords, Except.error.injEq]
      constructor
      · rintro rfl
        exact ⟨[], first, items, rfl, List.forall_mem_nil _, hfirst⟩
      · rintro ⟨before, item, behind, hsplit, hbefore, hitem⟩
        -- Nothing stands before the first item, since this one has no record.
        cases before with
        | nil =>
          obtain ⟨rfl, -⟩ := List.cons.inj hsplit
          exact Except.error.inj (hfirst.symm.trans hitem)
        | cons other before =>
          obtain ⟨rfl, -⟩ := List.cons.inj hsplit
          have hok := hbefore first List.mem_cons_self
          rw [hfirst] at hok
          contradiction
    | ok record =>
      rw [recordsOfValues_cons_eq_error_iff hfirst, ih]
      constructor
      · rintro ⟨before, item, behind, rfl, hbefore, hitem⟩
        refine ⟨first :: before, item, behind, rfl, ?_, hitem⟩
        exact List.forall_mem_cons.mpr ⟨by rw [hfirst]; rfl, hbefore⟩
      · rintro ⟨before, item, behind, hsplit, hbefore, hitem⟩
        cases before with
        | nil =>
          obtain ⟨rfl, -⟩ := List.cons.inj hsplit
          rw [hfirst] at hitem
          contradiction
        | cons other before =>
          obtain ⟨rfl, rfl⟩ := List.cons.inj hsplit
          exact ⟨before, item, behind, rfl, (List.forall_mem_cons.mp hbefore).2, hitem⟩

/-! ### Documents -/

namespace Json.Document

/-- What reading records from a document comes to. -/
structure Determines (document : Document) (outcome : Except ReadFault (List TokenRecord)) :
    Prop where
  /-- There are records exactly if the document is a list in which every item stands for one. -/
  accepts : outcome.isOk ↔
    ∃ items, document = .list items ∧ ∀ item ∈ items, ∃ record, item.StandsFor record
  /-- The records are those for which the items stand, one by one. -/
  records : ∀ records, outcome = .ok records →
    ∃ items, document = .list items ∧ List.Forall₂ StandsFor items records
  /-- If an item of a list stands for no record, then the fault is that of the first such item. -/
  firstFault : ∀ items, document = .list items →
    (∃ item ∈ items, ¬ ∃ record, item.StandsFor record) →
      ∃ before item behind fault, items = before ++ item :: behind ∧
        (∀ other ∈ before, ∃ record, other.StandsFor record) ∧ item.HasFault fault ∧
          TokenRecord.ofValue item.value = .error fault ∧ outcome = .error (.item fault)
  /-- What is no list is refused as such. -/
  notList : (∀ items, document ≠ .list items) →
    outcome = .error (.notList document.value.typeName)

/-- The records of a list are those for which its items stand. -/
theorem recordsOfValues_items_eq_ok_iff {items : List Document} {records : List TokenRecord} :
    recordsOfValues (items.map value) = .ok records ↔ List.Forall₂ StandsFor items records := by
  rw [recordsOfValues_eq_ok_iff, List.forall₂_map_left_iff]
  simp only [ofValue_eq_ok_iff]

/-- The fault of a list is that of its first item that stands for no record. -/
theorem recordsOfValues_items_eq_error_iff {items : List Document} {fault : RecordFault} :
    recordsOfValues (items.map value) = .error fault ↔
      ∃ before item behind, items = before ++ item :: behind ∧
        (∀ other ∈ before, ∃ record, other.StandsFor record) ∧ item.HasFault fault := by
  have hok : ∀ item : Document, (TokenRecord.ofValue item.value).isOk = true ↔
      ∃ record, item.StandsFor record := by
    intro item
    simp only [← ofValue_eq_ok_iff]
    cases TokenRecord.ofValue item.value <;> simp [Except.isOk, Except.toBool]
  rw [recordsOfValues_eq_error_iff]
  constructor
  · rintro ⟨before, item, behind, hsplit, hbefore, hitem⟩
    obtain ⟨before, rest, rfl, rfl, hrest⟩ := List.map_eq_append_iff.mp hsplit
    obtain ⟨item, behind, rfl, rfl, rfl⟩ := List.map_eq_cons_iff.mp hrest
    refine ⟨before, item, behind, rfl, fun other hother => ?_, ofValue_eq_error_iff.mp hitem⟩
    exact (hok other).mp (hbefore _ (List.mem_map_of_mem hother))
  · rintro ⟨before, item, behind, rfl, hbefore, hitem⟩
    refine ⟨before.map value, item.value, behind.map value, by simp, ?_, hitem.ofValue_eq⟩
    intro other hother
    obtain ⟨document, hdocument, rfl⟩ := List.mem_map.mp hother
    exact (hok document).mpr (hbefore document hdocument)

theorem exists_record_of_forall₂ {items : List Document} {records : List TokenRecord}
    (h : List.Forall₂ StandsFor items records) :
    ∀ item ∈ items, ∃ record, item.StandsFor record := by
  induction h with
  | nil => exact List.forall_mem_nil _
  | cons hitem _ ih => exact List.forall_mem_cons.mpr ⟨⟨_, hitem⟩, ih⟩

/-- A list either has a record for each of its items, or the fault of the first item that stands for
none. -/
theorem determines_list (items : List Document) :
    Determines (.list items) ((recordsOfValues (items.map value)).mapError .item) := by
  cases hrecords : recordsOfValues (items.map value) with
  | ok records =>
    have hitems := recordsOfValues_items_eq_ok_iff.mp hrecords
    have hall := exists_record_of_forall₂ hitems
    refine ⟨iff_of_true rfl ⟨items, rfl, hall⟩, ?_, ?_, fun h => absurd rfl (h items)⟩
    · intro found hfound
      cases hfound
      exact ⟨items, rfl, hitems⟩
    · rintro _ ⟨rfl⟩ ⟨item, hitem, hnone⟩
      exact absurd (hall item hitem) hnone
  | error fault =>
    obtain ⟨before, item, behind, rfl, hbefore, hfault⟩ :=
      recordsOfValues_items_eq_error_iff.mp hrecords
    have hnone : ¬ ∃ record, item.StandsFor record := by
      rintro ⟨record, hrecord⟩
      have heq := hrecord.ofValue_eq.symm.trans hfault.ofValue_eq
      contradiction
    refine ⟨iff_of_false Bool.false_ne_true ?_, fun _ h => by contradiction, ?_,
      fun h => absurd rfl (h _)⟩
    · rintro ⟨_, ⟨rfl⟩, hall⟩
      exact hnone (hall item (by simp))
    · rintro _ ⟨rfl⟩ -
      exact ⟨before, item, behind, fault, rfl, hbefore, hfault, hfault.ofValue_eq, rfl⟩

/-- What is no list has no records. -/
theorem determines_of_ne_list {document : Document} (h : ∀ items, document ≠ .list items) :
    Determines document (.error (.notList document.value.typeName)) where
  accepts := iff_of_false (by simp [Except.isOk, Except.toBool])
    (fun ⟨items, hlist, _⟩ => h items hlist)
  records := fun _ hok => by contradiction
  firstFault := fun items hlist => absurd hlist (h items)
  notList := fun _ => rfl

end Json.Document

/-- **A text is read as records exactly if it is a list of token objects.**  A text can be read at
all exactly if it is the written form of a document.  If this is a list in which every item stands
for a record, then these are what is read; if some item does not, then the fault is that of the
first such item. -/
theorem deserialize_determined (text : String) :
    ((Json.read text).isOk ↔ ∃ document : Json.Document, document.IsWrittenIn text) ∧
      ∀ document : Json.Document, document.IsWrittenIn text →
        Json.read text = .ok document.value ∧ document.Determines (deserialize text) := by
  have hread : ∀ document : Json.Document, document.IsWrittenIn text →
      Json.read text = .ok document.value := by
    intro document hwritten
    exact Json.read_eq_ok_iff.mpr ⟨document, hwritten, rfl⟩
  refine ⟨⟨fun hok => ?_, ?_⟩, fun document hwritten => ⟨hread document hwritten, ?_⟩⟩
  · cases hvalue : Json.read text with
    | error error => rw [hvalue] at hok; contradiction
    | ok value =>
      obtain ⟨document, hwritten, -⟩ := Json.read_eq_ok_iff.mp hvalue
      exact ⟨document, hwritten⟩
  · rintro ⟨document, hwritten⟩
    rw [hread document hwritten]
    rfl
  · rw [deserialize, hread document hwritten]
    cases document with
    | list items =>
      rw [Json.Document.value_list]
      exact Json.Document.determines_list items
    | object entries =>
      rw [Json.Document.value_object]
      exact Json.Document.determines_of_ne_list (by simp)
    | text s => exact Json.Document.determines_of_ne_list (by simp)
    | atom value isAtomic =>
      cases value with
      | list items => contradiction
      | _ => exact Json.Document.determines_of_ne_list (by simp)

/-- A text in which an entry for the kind is overruled by a later one. -/
theorem deserialize_determined_of_second_kind :
    let text := "[\x7b\"kind\": 0, \"text\": 1, \"kind\": \"CHAR\", \"offset\": null\x7d]"
    (Json.read text).isOk ∧ ∃ document : Json.Document, document.IsWrittenIn text ∧
      document.Determines (deserialize text) := by
  intro text
  have hok : (Json.read text).isOk := by decide +kernel
  obtain ⟨document, hwritten⟩ := (deserialize_determined text).1.mp hok
  exact ⟨hok, document, hwritten, ((deserialize_determined text).2 document hwritten).2⟩

/-- Of two kinds the last one counts. -/
example : ((deserialize
    "[\x7b\"kind\": 0, \"text\": 1, \"kind\": \"CHAR\", \"offset\": null\x7d]").toOption.map
      fun records => records.map TokenRecord.kind) = some [.char] := by
  decide +kernel

end TokenStream
