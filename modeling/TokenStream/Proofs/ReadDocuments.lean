import TokenStream.Proofs.Documents

/-!
# Reading documents

Reading goes through the lexemes of a text with a stack of what is still open.  What it has passed
at any time are the lexemes of documents that are complete, inside of lists and objects that are
not, and each lexeme that it admits adds to these.  So it admits the lexemes of documents and
nothing else, and in the end it has the value of the document.

## Main definitions

* `Json.Progress.takes` — what lexemes in a row change, if each of them is expected.
* `Json.Document.IsAdmitted` — the lexemes of a document lead to the place after its value.
* `Json.Trail`, `Json.Progress.Passed` — the lexemes that lead to what is expected and open.

## Main results

* `Json.isAdmitted` — **every document is admitted**.
* `Json.Progress.Passed.next?` — **an admitted lexeme adds to what has been passed**.
* `Json.read_eq_ok_iff` — **a text is read as a value exactly if it is the written form of a
  document that stands for it**.
-/

namespace TokenStream

namespace Json

/-! ### Admitting lexemes -/

namespace Progress

/-- What lexemes in a row change, if each of them is expected. -/
def takes (progress : Progress) (lexemes : List Lexeme) : Option Progress :=
  lexemes.foldlM next? progress

variable {progress after : Progress}

theorem takes_cons {lexeme : Lexeme} (lexemes : List Lexeme)
    (h : progress.next? lexeme = some after) :
    progress.takes (lexeme :: lexemes) = after.takes lexemes := by
  rw [takes, List.foldlM_cons, h]
  rfl

theorem takes_append {front : List Lexeme} (back : List Lexeme)
    (h : progress.takes front = some after) :
    progress.takes (front ++ back) = after.takes back := by
  rw [takes] at h
  rw [takes, List.foldlM_append, h]
  rfl

theorem step_eq_ok_iff {placed : PlacedLexeme} :
    progress.step placed = .ok after ↔ progress.next? placed.lexeme = some after := by
  unfold step
  split
  · next hnext => rw [hnext, Except.ok.injEq, Option.some.injEq]
  · next hnext _ =>
    rw [hnext]
    split <;> simp
  · next hnext _ => rw [hnext]; simp

/-- Where the lexemes stand does not matter as long as they are expected. -/
theorem steps_eq_ok_iff {placed : List PlacedLexeme} :
    progress.steps placed = .ok after ↔
      progress.takes (placed.map PlacedLexeme.lexeme) = some after := by
  unfold steps takes
  induction placed generalizing progress with
  | nil => simp [pure, Except.pure]
  | cons first placed ih =>
    rw [List.map_cons, List.foldlM_cons, List.foldlM_cons]
    cases hnext : progress.next? first.lexeme with
    | none =>
      cases hstep : progress.step first with
      | error stop => simp [bind, Except.bind]
      | ok next => rw [step_eq_ok_iff, hnext] at hstep; contradiction
    | some next =>
      rw [step_eq_ok_iff.mpr hnext]
      exact ih

end Progress

/-! ### The lexemes of a document are admitted -/

section Admitted

variable {stack : List Frame}

/-- Wherever a value may start, the lexemes of a document lead to the place after its value. -/
def Document.IsAdmitted (document : Document) : Prop :=
  ∀ {progress : Progress} {stack : List Frame}, progress.Awaits stack →
    progress.takes document.lexemes = some ⟨.following document.value, stack⟩

/-- The items of a list, behind those that have been read, and its end. -/
theorem takes_items {items : List Document} (hitems : ∀ item ∈ items, item.IsAdmitted)
    (hne : items ≠ []) {progress : Progress} (before : List Value)
    (hawaits : progress.Awaits (.items before :: stack)) :
    progress.takes (separated (items.map Document.lexemes) ++ [.closeList]) =
      some ⟨.following (.list (before.reverse ++ items.map Document.value)), stack⟩ := by
  induction items generalizing progress before with
  | nil => contradiction
  | cons item items ih =>
    obtain ⟨hitem, hitems⟩ := List.forall_mem_cons.mp hitems
    cases items with
    | nil =>
      rw [List.map_singleton, List.map_singleton, separated,
        Progress.takes_append _ (hitem hawaits), ← List.reverse_cons]
      rfl
    | cons next items =>
      have hnext := ih hitems (List.cons_ne_nil _ _) (item.value :: before) (awaits_value _)
      rw [List.map_cons, List.map_cons, separated_cons_cons, List.append_assoc,
        Progress.takes_append _ (hitem hawaits), List.cons_append, Progress.takes_cons _ rfl,
        ← List.map_cons, hnext]
      simp

/-- The entries of an object, behind those that have been read, and its end. -/
theorem takes_entries {entries : List (String × Document)}
    (hentries : ∀ entry ∈ entries, entry.2.IsAdmitted) (hne : entries ≠ []) (first : Bool)
    (before : List (String × Document)) :
    Progress.takes ⟨.key first (Document.settled before), stack⟩
        (separated (entries.map Document.entryLexemes) ++ [.closeObject]) =
      some ⟨.following (.object (Document.settled (before ++ entries))), stack⟩ := by
  induction entries generalizing first before with
  | nil => contradiction
  | cons entry entries ih =>
    obtain ⟨key, document⟩ := entry
    obtain ⟨hdocument, hentries⟩ := List.forall_mem_cons.mp hentries
    -- The key and the colon lead to the place of the value, which is then the place after it.
    have hentry : Progress.takes ⟨.key first (Document.settled before), stack⟩
        (Document.entryLexemes (key, document)) =
          some ⟨.following document.value, .fields (Document.settled before) key :: stack⟩ := by
      rw [Document.entryLexemes, Progress.takes_cons _ rfl, Progress.takes_cons _ rfl]
      exact hdocument (awaits_value _)
    cases entries with
    | nil =>
      rw [List.map_singleton, separated, Progress.takes_append _ hentry,
        Document.settled_concat]
      rfl
    | cons next entries =>
      have hnext := ih hentries (List.cons_ne_nil _ _) false (before ++ [(key, document)])
      rw [Document.settled_concat, List.append_assoc] at hnext
      rw [List.map_cons, List.map_cons, separated_cons_cons, List.append_assoc,
        Progress.takes_append _ hentry, List.cons_append, Progress.takes_cons _ rfl,
        ← List.map_cons]
      exact hnext

/-- **The lexemes of a document lead to the place after its value.** -/
theorem isAdmitted (document : Document) : document.IsAdmitted := by
  intro progress stack hawaits
  induction document generalizing progress stack with
  | atom value isAtomic =>
    have hnext := hawaits (.simple value) (by simp)
    exact Progress.takes_cons [] hnext
  | text s =>
    have hnext := hawaits (.text s) (by simp)
    exact Progress.takes_cons [] hnext
  | list items ih =>
    have hopen := hawaits .openList (by simp)
    rw [Document.lexemes_list, Document.value_list, List.cons_append,
      Progress.takes_cons _ hopen]
    cases items with
    | nil => rfl
    | cons item items =>
      exact takes_items (fun item hitem => ih item hitem) (List.cons_ne_nil _ _) []
        (awaits_firstItem stack)
  | object entries ih =>
    have hopen := hawaits .openObject (by simp)
    rw [Document.lexemes_object, Document.value_object, List.cons_append,
      Progress.takes_cons _ hopen]
    cases entries with
    | nil => rfl
    | cons entry entries =>
      exact takes_entries (fun entry hentry => ih entry hentry) (List.cons_ne_nil _ _) true []

end Admitted

/-! ### What has been admitted are the lexemes of documents -/

/-- A lexeme that stands for a value without parts does so rightly. -/
def Lexeme.IsAtomic : Lexeme → Prop
  | .simple value => value.IsAtomic
  | _ => True

theorem isAtomic_of_word? {text word : List Char} {value : Value}
    (h : word? text = some (word, value)) : value.IsAtomic := by
  have hmem := List.mem_of_find?_eq_some h
  simp only [words, List.mem_cons, List.not_mem_nil, or_false, Prod.mk.injEq] at hmem
  rcases hmem with ⟨-, rfl⟩ | ⟨-, rfl⟩ | ⟨-, rfl⟩ | ⟨-, rfl⟩ | ⟨-, rfl⟩ | ⟨-, rfl⟩ <;> trivial

theorem isAtomic_numeralValue (numeral : Numeral) : (numeralValue numeral).IsAtomic := by
  unfold numeralValue
  split <;> trivial

theorem Lexeme.isAtomic_readSimple (c : Char) (rest : List Char) :
    (readSimple c rest).1.IsAtomic := by
  unfold readSimple
  split
  · next hword => exact isAtomic_of_word? hword
  · split
    · exact isAtomic_numeralValue _
    · trivial

theorem Lexeme.isAtomic_read (c : Char) (rest : List Char) : (read c rest).1.IsAtomic := by
  unfold read
  split
  case h_7 =>
    unfold readText
    split <;> trivial
  case h_8 => exact isAtomic_readSimple _ rest
  all_goals trivial

theorem isAtomic_of_mem_lexemes {text : List Char} {placed : PlacedLexeme}
    (h : placed ∈ lexemes text) : placed.lexeme.IsAtomic := by
  obtain ⟨c, rest, -, hlexeme⟩ := exists_read_of_mem_lexemes h
  rw [hlexeme]
  exact Lexeme.isAtomic_read c rest

/-- The lexemes that lead to the inside of what is open: each list and each object has complete
items and entries with a comma behind each, and an object then the key of the open place. -/
inductive Trail : List Frame → List Lexeme → Prop
  /-- Nothing is open. -/
  | outside : Trail [] []
  /-- A list is open behind some items. -/
  | items {stack : List Frame} {passed : List Lexeme} (h : Trail stack passed)
      (items : List Document) :
      Trail (.items (items.map Document.value).reverse :: stack)
        (passed ++ .openList :: (items.map Document.lexemes).flatMap (· ++ [.comma]))
  /-- An object is open behind some entries and a key. -/
  | fields {stack : List Frame} {passed : List Lexeme} (h : Trail stack passed)
      (entries : List (String × Document)) (key : String) :
      Trail (.fields (Document.settled entries) key :: stack)
        (passed ++ .openObject ::
          (entries.map Document.entryLexemes).flatMap (· ++ [.comma]) ++ [.text key, .colon])

/-- The lexemes that lead to what is expected and open. -/
inductive Progress.Passed : Progress → List Lexeme → Prop
  /-- A value comes next. -/
  | value {stack : List Frame} {passed : List Lexeme} (h : Trail stack passed) :
      Passed ⟨.value, stack⟩ passed
  /-- A list has just been opened. -/
  | firstItem {stack : List Frame} {passed : List Lexeme} (h : Trail stack passed) :
      Passed ⟨.firstItem, stack⟩ (passed ++ [.openList])
  /-- A key comes next.  Directly behind the brace there are no entries yet. -/
  | key {stack : List Frame} {passed : List Lexeme} (h : Trail stack passed)
      (entries : List (String × Document)) {first : Bool} (hfirst : first = true → entries = []) :
      Passed ⟨.key first (Document.settled entries), stack⟩
        (passed ++ .openObject :: (entries.map Document.entryLexemes).flatMap (· ++ [.comma]))
  /-- A colon comes next. -/
  | colon {stack : List Frame} {passed : List Lexeme} (h : Trail stack passed)
      (entries : List (String × Document)) (key : String) :
      Passed ⟨.colon (Document.settled entries) key, stack⟩
        (passed ++ .openObject ::
          (entries.map Document.entryLexemes).flatMap (· ++ [.comma]) ++ [.text key])
  /-- A value has been read. -/
  | following {stack : List Frame} {passed : List Lexeme} (h : Trail stack passed)
      (document : Document) :
      Passed ⟨.following document.value, stack⟩ (passed ++ document.lexemes)

namespace Progress

variable {progress after : Progress} {passed : List Lexeme} {lexeme : Lexeme}

theorem passed_start : Passed start [] := .value .outside

/-- The first lexeme of a value adds to what has been passed. -/
theorem passed_of_open? {stack : List Frame} (htrail : Trail stack passed)
    (hatomic : lexeme.IsAtomic) (h : open? stack lexeme = some after) :
    after.Passed (passed ++ [lexeme]) := by
  cases lexeme with
  | openList => cases h; exact .firstItem htrail
  | openObject => cases h; exact .key htrail [] fun _ => rfl
  | text s => cases h; exact .following htrail (.text s)
  | simple value => cases h; exact .following htrail (.atom value hatomic)
  | _ => contradiction

/-- A comma or the end of a list behind a value. -/
theorem passed_of_item {stack : List Frame} (htrail : Trail stack passed)
    (items : List Document) (document : Document)
    (h : Progress.next? ⟨.following document.value,
      .items (items.map Document.value).reverse :: stack⟩ lexeme = some after) :
    after.Passed (passed ++ .openList ::
      (items.map Document.lexemes).flatMap (· ++ [.comma]) ++ document.lexemes ++ [lexeme]) := by
  cases lexeme with
  | comma =>
    cases h
    have hmore := Passed.value (htrail.items (items ++ [document]))
    simpa using hmore
  | closeList =>
    cases h
    have hlist := Passed.following htrail (.list (items ++ [document]))
    rw [Document.lexemes_list, List.map_append, List.map_singleton, separated_concat] at hlist
    simpa using hlist
  | _ => contradiction

/-- A comma or the end of an object behind a value. -/
theorem passed_of_field {stack : List Frame} (htrail : Trail stack passed)
    (entries : List (String × Document)) (key : String) (document : Document)
    (h : Progress.next? ⟨.following document.value,
      .fields (Document.settled entries) key :: stack⟩ lexeme = some after) :
    after.Passed (passed ++ .openObject ::
      (entries.map Document.entryLexemes).flatMap (· ++ [.comma]) ++ [.text key, .colon] ++
        document.lexemes ++ [lexeme]) := by
  cases lexeme with
  | comma =>
    cases h
    have hmore : Passed ⟨.key false (Document.settled (entries ++ [(key, document)])), stack⟩ _ :=
      .key htrail _ (by simp)
    rw [Document.settled_concat] at hmore
    simpa [Document.entryLexemes] using hmore
  | closeObject =>
    cases h
    have hobject := Passed.following htrail (.object (entries ++ [(key, document)]))
    rw [Document.value_object, Document.settled_concat, Document.lexemes_object, List.map_append,
      List.map_singleton, separated_concat] at hobject
    simpa [Document.entryLexemes] using hobject
  | _ => contradiction

/-- **An admitted lexeme adds to what has been passed.** -/
theorem Passed.next? (h : progress.Passed passed) (hatomic : lexeme.IsAtomic)
    (hnext : progress.next? lexeme = some after) : after.Passed (passed ++ [lexeme]) := by
  cases h with
  | value htrail => exact passed_of_open? htrail hatomic hnext
  | firstItem htrail =>
    cases lexeme with
    | closeList =>
      cases hnext
      have hlist := Passed.following htrail (.list [])
      simpa [separated] using hlist
    | _ => exact passed_of_open? (htrail.items []) hatomic hnext
  | @key stack passed htrail entries first hfirst =>
    cases lexeme with
    | text key => cases hnext; exact .colon htrail entries key
    | closeObject =>
      cases first with
      | false => contradiction
      | true =>
        cases hnext
        obtain rfl := hfirst rfl
        have hobject := Passed.following htrail (.object [])
        simpa [separated] using hobject
    | _ => cases first <;> contradiction
  | colon htrail entries key =>
    cases lexeme with
    | colon =>
      cases hnext
      have hvalue := Passed.value (htrail.fields entries key)
      simpa using hvalue
    | _ => contradiction
  | following htrail document =>
    cases htrail with
    | outside => cases lexeme <;> contradiction
    | items htrail items => exact passed_of_item htrail items document hnext
    | fields htrail entries key => exact passed_of_field htrail entries key document hnext

/-- Admitted lexemes add to what has been passed. -/
theorem Passed.takes {lexemes : List Lexeme} (h : progress.Passed passed)
    (hatomic : ∀ lexeme ∈ lexemes, lexeme.IsAtomic)
    (htakes : progress.takes lexemes = some after) : after.Passed (passed ++ lexemes) := by
  induction lexemes generalizing progress passed with
  | nil =>
    cases htakes
    rwa [List.append_nil]
  | cons lexeme lexemes ih =>
    obtain ⟨hlexeme, hlexemes⟩ := List.forall_mem_cons.mp hatomic
    cases hnext : progress.next? lexeme with
    | none =>
      rw [Progress.takes, List.foldlM_cons, hnext] at htakes
      contradiction
    | some next =>
      rw [takes_cons _ hnext] at htakes
      have hrest := ih (h.next? hlexeme hnext) hlexemes htakes
      rwa [List.append_assoc] at hrest

/-- What has been read in the end is a document. -/
theorem Passed.exists_document (h : progress.Passed passed) {value : Value}
    (hresult : progress.result? = some value) :
    ∃ document : Document, passed = document.lexemes ∧ document.value = value := by
  cases h with
  | following htrail document =>
    cases htrail with
    | outside =>
      cases hresult
      exact ⟨document, rfl, rfl⟩
    | _ => contradiction
  | _ => contradiction

end Progress

/-! ### Texts and documents -/

/-- Reading succeeds if the lexemes are admitted and nothing is open in the end. -/
theorem readChars_eq_ok_iff {text : List Char} {value : Value} :
    readChars text = .ok value ↔ text.head? ≠ some '\uFEFF' ∧
      ∃ progress, Progress.start.takes ((lexemes text).map PlacedLexeme.lexeme) = some progress ∧
        progress.result? = some value := by
  unfold readChars
  split
  · next hmark => simp [hmark]
  · next hmark =>
    simp only [ne_eq, hmark, not_false_eq_true, true_and, ← Progress.steps_eq_ok_iff]
    cases hsteps : Progress.start.steps (lexemes text) with
    | error stop => simp [bind, Except.bind]
    | ok progress =>
      cases hresult : progress.result? with
      | none => simp [bind, Except.bind, hresult]
      | some found => simp [bind, Except.bind, pure, Except.pure, hresult]

/-- **A text is read as a value exactly if it is the written form of a document that stands for
it.** -/
theorem read_eq_ok_iff {text : String} {value : Value} :
    read text = .ok value ↔ ∃ document : Document, document.IsWrittenIn text ∧
      document.value = value := by
  have hread : read text = .ok value ↔ readChars text.toList = .ok value := by
    cases hchars : readChars text.toList with
    | error stop =>
      have hfault : read text = .error (.ofStop text.toList stop) := by rw [read, hchars]; rfl
      simp [hfault]
    | ok found =>
      have hfound : read text = .ok found := by rw [read, hchars]; rfl
      rw [hfound, Except.ok.injEq, Except.ok.injEq]
  rw [hread, readChars_eq_ok_iff]
  constructor
  · rintro ⟨hmark, progress, htakes, hresult⟩
    have hatomic : ∀ lexeme ∈ (lexemes text.toList).map PlacedLexeme.lexeme, lexeme.IsAtomic := by
      intro lexeme hlexeme
      obtain ⟨placed, hplaced, rfl⟩ := List.mem_map.mp hlexeme
      exact isAtomic_of_mem_lexemes hplaced
    have hpassed := Progress.passed_start.takes hatomic htakes
    obtain ⟨document, hlexemes, hvalue⟩ := hpassed.exists_document hresult
    exact ⟨document, ⟨hmark, hlexemes⟩, hvalue⟩
  · rintro ⟨document, hwritten, rfl⟩
    refine ⟨hwritten.unmarked, ⟨.following document.value, []⟩, ?_, rfl⟩
    rw [hwritten.lexemes_eq]
    exact isAdmitted document (awaits_value [])

end Json

end TokenStream
