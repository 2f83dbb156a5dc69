import TokenStream.Proofs.TokenObjects

/-!
# Classes of faults

Whoever reads serialized tokens is told that whatever is wrong with them is a value error.  This
holds of every text that cannot be read, of every value that is no list or no object, of missing
fields, and of kinds that are not the name of one, but for one case: a list or an object in the
place of the kind cannot even be looked up among the names, and this is a type error.

## Main definitions

* `Value.HasCompoundKind` — an object with a list or an object in the place of the kind.
* `OnlyValueErrors` — what has been tried has failed, if at all, with a value error.

## Main results

* `TokenRecord.onlyValueErrors_ofValue_iff` — **an item fails with a type error exactly if its kind
  is compound**.
* `onlyValueErrors_iff` — **faults are value errors exactly if no compound kind is come to**.
* `typeError_of_list_kind` — a list in the place of the kind is a type error.
-/

namespace TokenStream

/-- An object in which a list or an object stands in the place of the kind. -/
def Value.HasCompoundKind : Value → Prop
  | .object fields => ∃ kind, lookup? "kind" fields = some kind ∧ kind.IsCompound
  | _ => False

/-- What has been tried has failed, if at all, with a value error. -/
def OnlyValueErrors {ε α : Type} (faultClass : ε → FaultClass) (outcome : Except ε α) : Prop :=
  ∀ fault, outcome = .error fault → (faultClass fault).isValueError = true

section Classes

variable {ε α : Type} {faultClass : ε → FaultClass}

theorem onlyValueErrors_ok (result : α) :
    OnlyValueErrors faultClass (.ok result : Except ε α) := by
  intro fault h
  contradiction

theorem onlyValueErrors_error_iff {fault : ε} :
    OnlyValueErrors faultClass (.error fault : Except ε α) ↔
      (faultClass fault).isValueError = true := by
  constructor
  · intro h
    exact h fault rfl
  · rintro h found hfound
    cases hfound
    exact h

instance (outcome : Except ε α) : Decidable (OnlyValueErrors faultClass outcome) :=
  match outcome with
  | .ok result => .isTrue (onlyValueErrors_ok result)
  | .error _ => decidable_of_iff _ onlyValueErrors_error_iff.symm

end Classes

/-! ### Items -/

/-- Only a compound kind is a fault of a class of its own. -/
theorem Token.Kind.isValueError_of_ofValue {value : Value} {fault : RecordFault}
    (h : Token.Kind.ofValue value = .error fault) :
    fault.faultClass.isValueError = true ↔ ¬ value.IsCompound := by
  by_cases hcompound : value.IsCompound
  · rw [ofValue_of_isCompound hcompound] at h
    cases h
    exact iff_of_false Bool.false_ne_true (not_not_intro hcompound)
  · refine iff_of_true ?_ hcompound
    unfold ofValue at h
    split at h
    case h_4 => split at h <;> cases h; rfl
    all_goals cases h
    · rfl
    · exact absurd trivial hcompound
    · exact absurd trivial hcompound
    · rfl

namespace TokenRecord

theorem isValueError_of_requiredField {fields : List (String × Value)} {name : String}
    {fault : RecordFault} (h : requiredField fields name = .error fault) :
    fault.faultClass.isValueError = true := by
  unfold requiredField at h
  split at h <;> cases h
  rfl

/-- A null in the place of a missing kind is not compound. -/
theorem isCompound_getD_iff {kind : Option Value} :
    (kind.getD .null).IsCompound ↔ ∃ value, kind = some value ∧ value.IsCompound := by
  cases kind with
  | none => simp [Value.IsCompound]
  | some value => simp

/-- **A fault of an item is a type error exactly if its kind is compound.** -/
theorem onlyValueErrors_ofValue_iff (value : Value) :
    OnlyValueErrors RecordFault.faultClass (ofValue value) ↔ ¬ value.HasCompoundKind := by
  cases value with
  | object fields =>
    rw [Value.HasCompoundKind, ← isCompound_getD_iff, ofValue]
    cases hkind : Token.Kind.ofValue ((Value.lookup? "kind" fields).getD .null) with
    | error fault =>
      exact onlyValueErrors_error_iff.trans (Token.Kind.isValueError_of_ofValue hkind)
    | ok kind =>
      have hcompound : ¬ ((Value.lookup? "kind" fields).getD .null).IsCompound := by
        intro hcompound
        rw [Token.Kind.ofValue_of_isCompound hcompound] at hkind
        contradiction
      refine iff_of_true ?_ hcompound
      cases htext : requiredField fields "text" with
      | error fault => exact onlyValueErrors_error_iff.mpr (isValueError_of_requiredField htext)
      | ok text =>
        cases hoffset : requiredField fields "offset" with
        | error fault =>
          exact onlyValueErrors_error_iff.mpr (isValueError_of_requiredField hoffset)
        | ok offset => exact onlyValueErrors_ok _
  | _ => exact iff_of_true (onlyValueErrors_error_iff.mpr rfl) (by simp [Value.HasCompoundKind])

end TokenRecord

/-! ### Lists of items -/

/-- Items in a row come to a type error exactly if the first one without a record has a compound
kind. -/
theorem onlyValueErrors_recordsOfValues_iff (items : List Value) :
    OnlyValueErrors RecordFault.faultClass (recordsOfValues items) ↔
      ¬ ∃ before item behind, items = before ++ item :: behind ∧
        (∀ other ∈ before, (TokenRecord.ofValue other).isOk) ∧ item.HasCompoundKind := by
  constructor
  · rintro h ⟨before, item, behind, rfl, hbefore, hcompound⟩
    have hitem := (TokenRecord.onlyValueErrors_ofValue_iff item).not.mpr (not_not_intro hcompound)
    cases hrecord : TokenRecord.ofValue item with
    | ok record =>
      rw [hrecord] at hitem
      exact hitem (onlyValueErrors_ok record)
    | error fault =>
      -- The fault of the item is that of all.
      have hfault : recordsOfValues (before ++ item :: behind) = .error fault :=
        recordsOfValues_eq_error_iff.mpr ⟨before, item, behind, rfl, hbefore, hrecord⟩
      rw [hfault] at h
      rw [hrecord] at hitem
      exact hitem (onlyValueErrors_error_iff.mpr (onlyValueErrors_error_iff.mp h))
  · intro hnone fault hfault
    obtain ⟨before, item, behind, hsplit, hbefore, hitem⟩ :=
      recordsOfValues_eq_error_iff.mp hfault
    have hcompound : ¬ item.HasCompoundKind := by
      intro hcompound
      exact hnone ⟨before, item, behind, hsplit, hbefore, hcompound⟩
    exact (TokenRecord.onlyValueErrors_ofValue_iff item).mpr hcompound fault hitem

/-- The class of a fault stays when it is said to be that of an item. -/
theorem onlyValueErrors_mapError_iff {α : Type} {outcome : Except RecordFault α} :
    OnlyValueErrors ReadFault.faultClass (outcome.mapError .item) ↔
      OnlyValueErrors RecordFault.faultClass outcome := by
  cases outcome with
  | ok result => exact iff_of_true (onlyValueErrors_ok result) (onlyValueErrors_ok result)
  | error fault =>
    have hfault : (Except.error fault : Except RecordFault α).mapError ReadFault.item =
        .error (.item fault) := rfl
    have hclass : (ReadFault.item fault).faultClass = fault.faultClass := rfl
    rw [hfault, onlyValueErrors_error_iff, onlyValueErrors_error_iff, hclass]

/-- **Faults are value errors exactly if no compound kind is come to.**  An item fails with a type
error exactly if its kind is a list or an object, and a text exactly if it is a list whose first
item without a record is such an item. -/
theorem onlyValueErrors_iff (value : Value) (text : String) :
    (OnlyValueErrors RecordFault.faultClass (TokenRecord.ofValue value) ↔
        ¬ value.HasCompoundKind) ∧
      (OnlyValueErrors ReadFault.faultClass (deserialize text) ↔
        ¬ ∃ before item behind, Json.read text = .ok (.list (before ++ item :: behind)) ∧
          (∀ other ∈ before, (TokenRecord.ofValue other).isOk) ∧ item.HasCompoundKind) := by
  refine ⟨TokenRecord.onlyValueErrors_ofValue_iff value, ?_⟩
  unfold deserialize
  split
  · next error hread =>
    refine iff_of_true (onlyValueErrors_error_iff.mpr rfl) ?_
    rintro ⟨before, item, behind, hlist, -⟩
    rw [hread] at hlist
    contradiction
  · next items hread =>
    rw [onlyValueErrors_mapError_iff, onlyValueErrors_recordsOfValues_iff]
    simp only [hread, Except.ok.injEq, Value.list.injEq]
  · next found hother hread =>
    refine iff_of_true (onlyValueErrors_error_iff.mpr rfl) ?_
    rintro ⟨before, item, behind, hlist, -⟩
    exact hother _ (Except.ok.inj (hread.symm.trans hlist))

/-- A list in the place of the kind is a type error, by itself and in a text. -/
theorem typeError_of_list_kind :
    ¬ OnlyValueErrors RecordFault.faultClass
        (TokenRecord.ofValue
          (.object [("kind", .list []), ("offset", .int 0), ("text", .text "")])) ∧
      ¬ OnlyValueErrors ReadFault.faultClass (deserialize "[\x7b\"kind\": []\x7d]") := by
  decide +kernel

end TokenStream
