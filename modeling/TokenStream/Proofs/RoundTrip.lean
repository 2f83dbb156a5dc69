import TokenStream.Proofs.WrittenValues
import TokenStream.Token.Record

/-!
# Tokens and back

A serialized list of tokens is a written value, and reading it gives that value back; what is left
is that the object of a record determines the record.

## Main results

* `TokenRecord.ofValue_toValue` — the record of its own object.
* `deserialize_serializeRecords` — records whose fields have an exact written form are read back.
* `deserialize_serialize` — **tokens are read back, and their form is printable ASCII**.
-/

namespace TokenStream

namespace TokenRecord

/-- The object of a record stands for the record, whatever its fields hold. -/
theorem ofValue_toValue (record : TokenRecord) : ofValue record.toValue = .ok record := by
  have hkind : Token.Kind.ofValue (.text record.kind.name) = .ok record.kind := by
    simp only [Token.Kind.ofValue, Token.Kind.ofName?_name]
  simp only [toValue, ofValue, requiredField, Value.lookup?, List.find?, String.reduceBEq,
    Option.map_some, Option.getD_some, hkind]
  rfl

/-- The entries of a record's object are in order. -/
theorem exact_toValue {record : TokenRecord} (htext : record.text.Exact)
    (hoffset : record.offset.Exact) : record.toValue.Exact := by
  have hkeys : "kind" < "offset" ∧ "kind" < "text" ∧ "offset" < "text" := by decide
  obtain ⟨hkindOffset, hkindText, hoffsetText⟩ := hkeys
  refine .object ?_ ?_
  · simp only [Value.Ascending, List.pairwise_cons, List.forall_mem_cons]
    exact ⟨⟨hkindOffset, hkindText, List.forall_mem_nil _⟩, ⟨hoffsetText, List.forall_mem_nil _⟩,
      List.forall_mem_nil _, List.Pairwise.nil⟩
  · simp only [List.forall_mem_cons]
    exact ⟨.text _, hoffset, htext, List.forall_mem_nil _⟩

end TokenRecord

theorem recordsOfValues_map_toValue (records : List TokenRecord) :
    recordsOfValues (records.map TokenRecord.toValue) = .ok records := by
  rw [recordsOfValues]
  induction records with
  | nil => rfl
  | cons record records ih =>
    rw [List.map_cons, List.mapM_cons, record.ofValue_toValue, ih]
    rfl

/-- The serialized form of records is the written form of a value that has an exact one, if their
fields have. -/
theorem exact_list_toValue {records : List TokenRecord}
    (h : ∀ record ∈ records, record.text.Exact ∧ record.offset.Exact) :
    (Value.list (records.map TokenRecord.toValue)).Exact := by
  apply Value.Exact.list
  intro item hitem
  obtain ⟨record, hrecord, rfl⟩ := List.mem_map.mp hitem
  exact TokenRecord.exact_toValue (h record hrecord).1 (h record hrecord).2

/-- Records whose fields have an exact written form are read back from their serialized form. -/
theorem deserialize_serializeRecords (indent : Json.Indent) {records : List TokenRecord}
    (h : ∀ record ∈ records, record.text.Exact ∧ record.offset.Exact) :
    deserialize (serializeRecords indent records) = .ok records := by
  rw [deserialize, serializeRecords, Json.read_write (exact_list_toValue h)]
  simp only [recordsOfValues_map_toValue]
  rfl

theorem exact_of_mem_map_toRecord (tokens : List Token) :
    ∀ record ∈ tokens.map Token.toRecord, record.text.Exact ∧ record.offset.Exact := by
  intro record hrecord
  obtain ⟨token, -, rfl⟩ := List.mem_map.mp hrecord
  exact ⟨.text _, .int _⟩

/-- **Tokens are read back from their serialized form**, for any indent, each record standing for
its token, and the form is printable ASCII but for the line breaks that an indent brings. -/
theorem deserialize_serialize (indent : Json.Indent) (tokens : List Token) :
    deserialize (serialize indent tokens) = .ok (tokens.map Token.toRecord) ∧
      (tokens.map Token.toRecord).map TokenRecord.toToken? = tokens.map some ∧
      ∀ c ∈ (serialize indent tokens).toList, Json.IsWritten indent c := by
  have hexact := exact_of_mem_map_toRecord tokens
  refine ⟨deserialize_serializeRecords indent hexact, ?_, ?_⟩
  · rw [List.map_map]
    rfl
  · rw [serialize, serializeRecords, Json.write, String.toList_ofList]
    exact Json.mem_writeChars (exact_list_toValue hexact) indent 0

end TokenStream
