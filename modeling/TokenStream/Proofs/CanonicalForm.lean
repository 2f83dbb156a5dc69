import TokenStream.Proofs.RoundTrip

/-!
# The canonical form

Many texts stand for the same records: white space is free, keys may come in any order and more than
once, and a character can be escaped in several ways.  Reading forgets all this.  The values that it
gives are in order throughout, however the text is written, and so they have an exact written form
if there are no floats among them.  Writing what has been read therefore gives one form for all
texts with the same records, which is read as these records and written as itself.

## Main definitions

* `Json.NamesNoFloat` — every number in a text is written without a fraction and an exponent.
* `Json.Progress.Exact` — all that has been read so far is in order, and free of floats.
* `reserialize` — the form of what has been read from a text.

## Main results

* `Value.ascending_put` — setting an entry keeps the keys in ascending order.
* `Json.Progress.Exact.step` — a lexeme without a float keeps what has been read in order.
* `Json.exact_of_read` — **a value that is read from a text without floats has an exact form**.
* `reserialize_canonical` — **the form of what has been read is canonical**.
-/

namespace TokenStream

/-! ### Entries in order -/

namespace Value

theorem mem_put {key : String} {value : Value} {fields : List (String × Value)}
    {field : String × Value} (h : field ∈ put key value fields) :
    field = (key, value) ∨ field ∈ fields := by
  induction fields with
  | nil => exact .inl (List.mem_singleton.mp h)
  | cons head rest ih =>
    obtain ⟨other, held⟩ := head
    rw [put] at h
    split at h
    · exact List.mem_cons.mp h
    · split at h
      · rcases List.mem_cons.mp h with hnew | hrest
        · exact .inl hnew
        · exact .inr (List.mem_cons_of_mem _ hrest)
      · rcases List.mem_cons.mp h with hhead | hrest
        · exact .inr (hhead ▸ List.mem_cons_self)
        · exact (ih hrest).imp_right (List.mem_cons_of_mem _)

/-- Setting an entry keeps the keys in ascending order. -/
theorem ascending_put {key : String} {value : Value} {fields : List (String × Value)}
    (h : Ascending fields) : Ascending (put key value fields) := by
  induction fields with
  | nil => exact List.pairwise_singleton _ _
  | cons head rest ih =>
    obtain ⟨other, held⟩ := head
    obtain ⟨hhead, hrest⟩ := List.pairwise_cons.mp h
    rw [put]
    split
    · next hlt =>
      refine List.pairwise_cons.mpr ⟨List.forall_mem_cons.mpr ⟨hlt, ?_⟩, h⟩
      intro field hfield
      exact String.lt_trans hlt (hhead field hfield)
    · next hnot =>
      split
      · next heq =>
        subst heq
        exact List.pairwise_cons.mpr ⟨hhead, hrest⟩
      · next hne =>
        refine List.pairwise_cons.mpr ⟨?_, ih hrest⟩
        intro field hfield
        rcases mem_put hfield with rfl | hold
        · exact Std.lt_of_le_of_ne (String.not_lt.mp hnot) (Ne.symm hne)
        · exact hhead field hold

/-- Entries that make up an exact object. -/
structure ExactFields (fields : List (String × Value)) : Prop where
  /-- The keys ascend. -/
  keys : Ascending fields
  /-- The values are exact. -/
  values : ∀ field ∈ fields, Exact field.2

theorem ExactFields.nil : ExactFields [] := ⟨List.Pairwise.nil, List.forall_mem_nil _⟩

theorem ExactFields.object {fields : List (String × Value)} (h : ExactFields fields) :
    Exact (.object fields) :=
  .object h.keys h.values

theorem ExactFields.put {fields : List (String × Value)} (h : ExactFields fields) (key : String)
    {value : Value} (hvalue : value.Exact) : ExactFields (Value.put key value fields) := by
  refine ⟨ascending_put h.keys, fun field hfield => ?_⟩
  rcases mem_put hfield with rfl | hold
  · exact hvalue
  · exact h.values field hold

/-- An entry of an exact object is exact. -/
theorem exact_of_lookup? {fields : List (String × Value)} (h : Exact (object fields))
    {key : String} {value : Value} (hlookup : lookup? key fields = some value) : value.Exact := by
  obtain ⟨field, hfind, rfl⟩ := Option.map_eq_some_iff.mp hlookup
  cases h with
  | object _ hvalues => exact hvalues field (List.mem_of_find?_eq_some hfind)

end Value

namespace Json

/-! ### Lexemes without floats -/

/-- Every number in a text is written without a fraction and an exponent, and none of the words for
what is no finite number stands in it. -/
def NamesNoFloat (text : List Char) : Prop :=
  ∀ placed ∈ lexemes text,
    (∀ read ∈ Numeral.read? placed.place, read.1.fraction = [] ∧ read.1.exponent = none) ∧
      ∀ word ∈ ["NaN", "Infinity", "-Infinity"], ¬ word.toList <+: placed.place

instance (text : List Char) : Decidable (NamesNoFloat text) :=
  inferInstanceAs (Decidable (∀ placed ∈ lexemes text, _ ∧ _))

/-- A lexeme that is no float. -/
def Lexeme.Exact : Lexeme → Prop
  | .simple value => value.Exact
  | _ => True

/-- A word stands for a float, or has an exact value. -/
theorem exact_of_word? {text word : List Char} {value : Value}
    (h : word? text = some (word, value))
    (hfinite : ∀ name ∈ ["NaN", "Infinity", "-Infinity"], ¬ name.toList <+: text) :
    value.Exact := by
  have hmem := List.mem_of_find?_eq_some h
  have hstarts := List.find?_some h
  rw [List.isPrefixOf_iff_prefix] at hstarts
  simp only [List.forall_mem_cons] at hfinite
  obtain ⟨hnan, hinfinity, hminus, -⟩ := hfinite
  simp only [words, List.mem_cons, List.not_mem_nil, or_false, Prod.mk.injEq] at hmem
  rcases hmem with ⟨-, rfl⟩ | ⟨-, rfl⟩ | ⟨-, rfl⟩ | ⟨rfl, -⟩ | ⟨rfl, -⟩ | ⟨rfl, -⟩
  · exact .null
  · exact .bool true
  · exact .bool false
  · exact absurd hstarts hnan
  · exact absurd hstarts hinfinity
  · exact absurd hstarts hminus

/-- A numeral without a fraction and an exponent stands for an integer. -/
theorem exact_numeralValue {numeral : Numeral} (hfraction : numeral.fraction = [])
    (hexponent : numeral.exponent = none) : (numeralValue numeral).Exact := by
  obtain ⟨negative, whole, fraction, exponent⟩ := numeral
  subst hfraction hexponent
  exact .int _

/-- Each lexeme is the one that the text from its place on starts with. -/
theorem exists_read_of_mem_lexemes {text : List Char} {placed : PlacedLexeme}
    (h : placed ∈ lexemes text) :
    ∃ c rest, placed.place = c :: rest ∧ placed.lexeme = (Lexeme.read c rest).1 := by
  fun_induction lexemes text with
  | case1 => contradiction
  | case2 c rest _ ih => exact ih h
  | case3 c rest _ ih =>
    rcases List.mem_cons.mp h with rfl | hrest
    · exact ⟨c, rest, rfl, rfl⟩
    · exact ih hrest

/-- What is neither a bracket nor a mark nor a text in quotes is exact if it is no float. -/
theorem Lexeme.exact_readSimple {c : Char} {rest : List Char}
    (hnumeral : ∀ read ∈ Numeral.read? (c :: rest),
      read.1.fraction = [] ∧ read.1.exponent = none)
    (hword : ∀ word ∈ ["NaN", "Infinity", "-Infinity"], ¬ word.toList <+: c :: rest) :
    (readSimple c rest).1.Exact := by
  unfold readSimple
  split
  · next hfound => exact exact_of_word? hfound hword
  · split
    · next hread =>
      obtain ⟨hfraction, hexponent⟩ := hnumeral _ hread
      exact exact_numeralValue hfraction hexponent
    · trivial

/-- A text without floats has exact lexemes. -/
theorem NamesNoFloat.exact {text : List Char} (h : NamesNoFloat text) :
    ∀ placed ∈ lexemes text, placed.lexeme.Exact := by
  intro placed hplaced
  obtain ⟨c, rest, hplace, hlexeme⟩ := exists_read_of_mem_lexemes hplaced
  obtain ⟨hnumeral, hword⟩ := h placed hplaced
  rw [hplace] at hnumeral hword
  rw [hlexeme]
  unfold Lexeme.read
  split
  case h_7 =>
    unfold Lexeme.readText
    split <;> trivial
  case h_8 => exact Lexeme.exact_readSimple hnumeral hword
  all_goals trivial

/-! ### Reading in order -/

/-- What has been read of an open list or object is exact. -/
def Frame.Exact : Frame → Prop
  | .items before => ∀ item ∈ before, item.Exact
  | .fields before _ => Value.ExactFields before

theorem Frame.exact_items_cons {item : Value} {before : List Value} (hitem : item.Exact)
    (h : Frame.Exact (.items before)) : Frame.Exact (.items (item :: before)) :=
  List.forall_mem_cons.mpr ⟨hitem, h⟩

/-- What has been read where something is expected is exact. -/
def Expectation.Exact : Expectation → Prop
  | .value | .firstItem => True
  | .key _ before | .colon before _ => Value.ExactFields before
  | .following found => found.Exact

/-- All that has been read so far is in order, and free of floats. -/
structure Progress.Exact (progress : Progress) : Prop where
  /-- This holds of what is at hand. -/
  expectation : progress.expectation.Exact
  /-- It holds of all that is open. -/
  stack : ∀ frame ∈ progress.stack, frame.Exact

namespace Progress

variable {progress after : Progress} {lexeme : Lexeme}

theorem exact_start : Progress.Exact start := ⟨trivial, List.forall_mem_nil _⟩

/-- A value starts in order. -/
theorem exact_of_open? {stack : List Frame} (hstack : ∀ frame ∈ stack, frame.Exact)
    (hlexeme : lexeme.Exact) (h : open? stack lexeme = some after) : after.Exact := by
  cases lexeme with
  | openList => cases h; exact ⟨trivial, hstack⟩
  | openObject => cases h; exact ⟨Value.ExactFields.nil, hstack⟩
  | text s => cases h; exact ⟨.text s, hstack⟩
  | simple value => cases h; exact ⟨hlexeme, hstack⟩
  | _ => contradiction

/-- An expected lexeme keeps what has been read in order. -/
theorem Exact.next? (h : progress.Exact) (hlexeme : lexeme.Exact)
    (hnext : progress.next? lexeme = some after) : after.Exact := by
  obtain ⟨expectation, stack⟩ := progress
  have hexpectation : expectation.Exact := h.expectation
  have hstack : ∀ frame ∈ stack, frame.Exact := h.stack
  simp only [Progress.next?] at hnext
  split at hnext
  case h_1 => exact exact_of_open? hstack hlexeme hnext
  case h_2 => cases hnext; exact ⟨.list (List.forall_mem_nil _), hstack⟩
  case h_3 =>
    have hopen : ∀ frame ∈ Frame.items [] :: _, frame.Exact :=
      List.forall_mem_cons.mpr ⟨List.forall_mem_nil _, hstack⟩
    exact exact_of_open? hopen hlexeme hnext
  case h_4 => cases hnext; exact ⟨hexpectation, hstack⟩
  case h_5 => cases hnext; exact ⟨Value.ExactFields.object hexpectation, hstack⟩
  case h_6 =>
    cases hnext
    exact ⟨trivial, List.forall_mem_cons.mpr ⟨hexpectation, hstack⟩⟩
  case h_7 =>
    cases hnext
    obtain ⟨hitems, hstack⟩ := List.forall_mem_cons.mp hstack
    have hmore := Frame.exact_items_cons hexpectation hitems
    exact ⟨trivial, List.forall_mem_cons.mpr ⟨hmore, hstack⟩⟩
  case h_8 =>
    cases hnext
    obtain ⟨hitems, hstack⟩ := List.forall_mem_cons.mp hstack
    have hmore := Frame.exact_items_cons hexpectation hitems
    exact ⟨.list fun item hitem => hmore item (List.mem_reverse.mp hitem), hstack⟩
  case h_9 =>
    cases hnext
    obtain ⟨hfields, hstack⟩ := List.forall_mem_cons.mp hstack
    exact ⟨Value.ExactFields.put hfields _ hexpectation, hstack⟩
  case h_10 =>
    cases hnext
    obtain ⟨hfields, hstack⟩ := List.forall_mem_cons.mp hstack
    exact ⟨(Value.ExactFields.put hfields _ hexpectation).object, hstack⟩
  case h_11 => contradiction

/-- **A lexeme without a float keeps what has been read in order.** -/
theorem Exact.step (h : progress.Exact) {placed : PlacedLexeme} (hlexeme : placed.lexeme.Exact)
    (hstep : progress.step placed = .ok after) : after.Exact := by
  unfold Progress.step at hstep
  split at hstep
  · next hnext =>
    cases hstep
    exact h.next? hlexeme hnext
  · split at hstep <;> contradiction
  · contradiction

/-- Lexemes without floats keep what has been read in order. -/
theorem Exact.steps {placed : List PlacedLexeme} (h : progress.Exact)
    (hlexemes : ∀ lexeme ∈ placed, lexeme.lexeme.Exact)
    (hsteps : progress.steps placed = .ok after) : after.Exact := by
  unfold Progress.steps at hsteps
  induction placed generalizing progress with
  | nil =>
    cases hsteps
    exact h
  | cons first placed ih =>
    obtain ⟨hfirst, hrest⟩ := List.forall_mem_cons.mp hlexemes
    rw [List.foldlM_cons] at hsteps
    cases hstep : progress.step first with
    | error stop => rw [hstep] at hsteps; contradiction
    | ok next =>
      rw [hstep] at hsteps
      exact ih (h.step hfirst hstep) hrest hsteps

/-- What has been read in the end is exact. -/
theorem Exact.result? (h : progress.Exact) {value : Value}
    (hresult : progress.result? = some value) : value.Exact := by
  unfold Progress.result? at hresult
  split at hresult
  · next hexpectation _ =>
    cases hresult
    have hvalue := h.expectation
    rwa [hexpectation] at hvalue
  · contradiction

end Progress

/-- The value of a text without floats is exact, whatever else the text has in it. -/
theorem exact_of_readChars {text : List Char} {value : Value} (hplain : NamesNoFloat text)
    (h : readChars text = .ok value) : value.Exact := by
  unfold readChars at h
  split at h
  · contradiction
  · cases hsteps : Progress.start.steps (lexemes text) with
    | error stop => rw [hsteps] at h; contradiction
    | ok progress =>
      rw [hsteps] at h
      have hexact := Progress.exact_start.steps hplain.exact hsteps
      cases hresult : progress.result? with
      | none => simp [hresult, bind, Except.bind] at h
      | some found =>
        simp only [bind, Except.bind, hresult] at h
        cases h
        exact hexact.result? hresult

/-- **A value that is read from a text without floats has an exact form.** -/
theorem exact_of_read {text : String} {value : Value} (hplain : NamesNoFloat text.toList)
    (h : read text = .ok value) : value.Exact := by
  unfold read at h
  cases hread : readChars text.toList with
  | error stop => rw [hread] at h; contradiction
  | ok found =>
    rw [hread] at h
    cases h
    exact exact_of_readChars hplain hread

end Json

/-! ### Records -/

namespace TokenRecord

theorem lookup?_of_requiredField {fields : List (String × Value)} {name : String} {value : Value}
    (h : requiredField fields name = .ok value) : Value.lookup? name fields = some value := by
  unfold requiredField at h
  cases hlookup : Value.lookup? name fields with
  | none => rw [hlookup] at h; contradiction
  | some found =>
    rw [hlookup] at h
    cases h
    rfl

/-- The record of an exact object has exact fields. -/
theorem exact_of_ofValue {value : Value} {record : TokenRecord} (hexact : value.Exact)
    (h : ofValue value = .ok record) : record.text.Exact ∧ record.offset.Exact := by
  cases value with
  | object fields =>
    simp only [ofValue, bind, Except.bind] at h
    split at h
    · contradiction
    · split at h
      · contradiction
      · next text htext =>
        split at h
        · contradiction
        · next offset hoffset =>
          cases h
          exact ⟨Value.exact_of_lookup? hexact (lookup?_of_requiredField htext),
            Value.exact_of_lookup? hexact (lookup?_of_requiredField hoffset)⟩
  | _ => contradiction

end TokenRecord

theorem exact_of_recordsOfValues {items : List Value} {records : List TokenRecord}
    (hitems : ∀ item ∈ items, item.Exact) (h : recordsOfValues items = .ok records) :
    ∀ record ∈ records, record.text.Exact ∧ record.offset.Exact := by
  unfold recordsOfValues at h
  induction items generalizing records with
  | nil =>
    cases h
    exact List.forall_mem_nil _
  | cons item items ih =>
    obtain ⟨hitem, hitems⟩ := List.forall_mem_cons.mp hitems
    rw [List.mapM_cons] at h
    cases hrecord : TokenRecord.ofValue item with
    | error fault => rw [hrecord] at h; contradiction
    | ok record =>
      cases hrest : items.mapM TokenRecord.ofValue with
      | error fault => rw [hrecord, hrest] at h; contradiction
      | ok rest =>
        rw [hrecord, hrest] at h
        cases h
        exact List.forall_mem_cons.mpr
          ⟨TokenRecord.exact_of_ofValue hitem hrecord, ih hitems hrest⟩

/-- The records that are read from a text without floats have exact fields. -/
theorem exact_of_deserialize {text : String} {records : List TokenRecord}
    (hplain : Json.NamesNoFloat text.toList) (h : deserialize text = .ok records) :
    ∀ record ∈ records, record.text.Exact ∧ record.offset.Exact := by
  unfold deserialize at h
  split at h
  · contradiction
  · next items hread =>
    cases Json.exact_of_read hplain hread with
    | list hitems =>
      cases hrecords : recordsOfValues items with
      | error fault => rw [hrecords] at h; contradiction
      | ok found =>
        rw [hrecords] at h
        cases h
        exact exact_of_recordsOfValues hitems hrecords
  · contradiction

/-! ### The canonical form -/

/-- The form of what has been read from a text. -/
def reserialize (indent : Json.Indent) (text : String) : Except ReadFault String :=
  (deserialize text).map (serializeRecords indent)

/-- **The form of what has been read is canonical.**  If the records of a text can be read and there
are no floats in it, then they have a form, which is read as the same records and is the form of
what is read from it. -/
theorem reserialize_canonical {text : String} (indent : Json.Indent)
    (hplain : Json.NamesNoFloat text.toList) (hread : (deserialize text).isOk) :
    ∃ form, reserialize indent text = .ok form ∧ deserialize form = deserialize text ∧
      reserialize indent form = .ok form := by
  cases hrecords : deserialize text with
  | error fault => rw [hrecords] at hread; contradiction
  | ok records =>
    have hback : deserialize (serializeRecords indent records) = .ok records :=
      deserialize_serializeRecords indent (exact_of_deserialize hplain hrecords)
    refine ⟨serializeRecords indent records, ?_, hback, ?_⟩
    · rw [reserialize, hrecords]
      rfl
    · rw [reserialize, hback]
      rfl

/-- Free white space, keys in any order, one of them twice, and escapes that need not be there. -/
theorem reserialize_canonical_of_free_form :
    let text := "\t[ \x7b\"text\":0, \"offset\" : \x7b\"b\":[-0,\x7b\x7d], \"\\u0061\":null\x7d," ++
      "\n \"more\": [ ], \"kind\":\"CHA\\u0052\", \"text\": \"\\ud83d\\ude00\\/\"\x7d ]"
    Json.NamesNoFloat text.toList ∧ (deserialize text).isOk ∧
      ∃ form, reserialize (some 2) text = .ok form ∧ deserialize form = deserialize text ∧
        reserialize (some 2) form = .ok form := by
  intro text
  have hplain : Json.NamesNoFloat text.toList := by decide +kernel
  have hread : (deserialize text).isOk := by decide +kernel
  exact ⟨hplain, hread, reserialize_canonical (some 2) hplain hread⟩

end TokenStream
