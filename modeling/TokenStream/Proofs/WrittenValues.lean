import TokenStream.Json.Read
import TokenStream.Proofs.WrittenIntegers
import TokenStream.Proofs.WrittenTexts

/-!
# Values and back

The written form of a value is read piece by piece.  Wherever a value is expected, the written form
of one leads to the place after that value, whatever is still open around it; so lists and objects
are read by their items and entries, one after the other.

Floats are left aside: that reading gives the same float again is a matter of rounding.

## Main definitions

* `Value.Exact` — values without floats that are in order throughout.
* `Json.Progress.reads` — reading on in a text.
* `Json.IsWritten` — the characters that written forms are made of.

## Main results

* `Json.reads_writeChars` — reading a written value comes to the place after the value.
* `Json.read_write` — **a written value is read as that value**.
* `Json.mem_writeChars` — a written value is printable ASCII but for its line breaks.
-/

namespace TokenStream

/-! ### Values that have an exact written form -/

namespace Value

/-- Entries in ascending order of their keys. -/
def Ascending (fields : List (String × Value)) : Prop :=
  fields.Pairwise fun earlier later => earlier.1 < later.1

/-- A value without floats in which the entries of every object are in ascending order. -/
inductive Exact : Value → Prop
  | null : Exact null
  | bool (b : Bool) : Exact (bool b)
  | int (n : Int) : Exact (int n)
  | text (s : String) : Exact (text s)
  | list {items : List Value} (hitems : ∀ item ∈ items, Exact item) : Exact (list items)
  | object {fields : List (String × Value)} (hkeys : Ascending fields)
      (hvalues : ∀ field ∈ fields, Exact field.2) : Exact (object fields)

/-- An entry whose key comes after all others is set at the end. -/
theorem put_of_forall_lt {key : String} {value : Value} {fields : List (String × Value)}
    (h : ∀ field ∈ fields, field.1 < key) : put key value fields = fields ++ [(key, value)] := by
  induction fields with
  | nil => rfl
  | cons field fields ih =>
    obtain ⟨hlt, hfields⟩ := List.forall_mem_cons.mp h
    have hnot : ¬ key < field.1 := String.lt_asymm hlt
    have hne : key ≠ field.1 := by
      rintro rfl
      exact String.lt_irrefl _ hlt
    rw [put, if_neg hnot, if_neg hne, ih hfields, List.cons_append]

/-- Entries in ascending order are set one after the other. -/
theorem put_of_ascending {key : String} {value : Value} {before fields : List (String × Value)}
    (h : Ascending (before ++ (key, value) :: fields)) :
    put key value before = before ++ [(key, value)] := by
  apply put_of_forall_lt
  intro field hfield
  exact (List.pairwise_append.mp h).2.2 field hfield _ List.mem_cons_self

end Value

namespace Json

/-! ### Reading on in a text -/

/-- What the lexemes of a text change, or where reading stops. -/
def Progress.reads (progress : Progress) (text : List Char) : Except Stop Progress :=
  progress.steps (lexemes text)

section Reading

variable {progress after : Progress} {indent : Indent} {depth : Nat} {rest : List Char}
  {stack : List Frame}

theorem reads_nil (progress : Progress) : progress.reads [] = .ok progress := by
  rw [Progress.reads, lexemes_nil]
  rfl

theorem reads_whitespace {c : Char} (h : isWhitespace c = true) :
    progress.reads (c :: rest) = progress.reads rest := by
  rw [Progress.reads, lexemes_cons, if_pos h]
  rfl

/-- Reading goes on behind a lexeme that is expected. -/
theorem reads_lexeme {c : Char} {lexeme : Lexeme} {tail : List Char}
    (hblank : isWhitespace c = false) (hread : Lexeme.read c tail = (lexeme, rest))
    (hnext : progress.next? lexeme = some after) :
    progress.reads (c :: tail) = after.reads rest := by
  have hstep : progress.step ⟨c :: tail, lexeme⟩ = .ok after := by
    unfold Progress.step
    rw [hnext]
  rw [Progress.reads, lexemes_cons, hblank, hread]
  simp only [Bool.false_eq_true, if_false, Progress.steps, List.foldlM_cons, hstep]
  rfl

theorem reads_lineBreak :
    progress.reads (lineBreak depth indent ++ rest) = progress.reads rest := by
  have hspaces : ∀ n, progress.reads (List.replicate n ' ' ++ rest) = progress.reads rest := by
    intro n
    induction n with
    | zero => rfl
    | succ n ih =>
      rw [List.replicate_succ, List.cons_append, reads_whitespace rfl, ih]
  cases indent with
  | none => rfl
  | some width =>
    rw [lineBreak, List.cons_append, reads_whitespace rfl, hspaces]

theorem reads_separator (h : progress.next? .comma = some after) :
    progress.reads (separator depth indent ++ rest) = after.reads rest := by
  cases indent with
  | none => exact (reads_lexeme rfl rfl h).trans (reads_whitespace rfl)
  | some width => exact (reads_lexeme rfl rfl h).trans reads_lineBreak

theorem reads_writeText {s : String} (h : progress.next? (.text s) = some after) :
    progress.reads (writeText s ++ rest) = after.reads rest := by
  rw [writeText, List.append_assoc]
  exact reads_lexeme rfl (readText_writeText s rest) h

/-- A key is read with its colon. -/
theorem reads_key {first : Bool} {before : List (String × Value)} {key : String} :
    Progress.reads ⟨.key first before, stack⟩ (writeText key ++ ':' :: ' ' :: rest) =
      Progress.reads ⟨.value, .fields before key :: stack⟩ rest := by
  rw [reads_writeText rfl]
  exact (reads_lexeme rfl rfl rfl).trans (reads_whitespace rfl)

end Reading

/-! ### Where numerals end -/

section Ends

variable {indent : Indent} {depth : Nat} {rest : List Char}

theorem ends_of_lineBreak (h : Numeral.Ends rest) :
    Numeral.Ends (lineBreak depth indent ++ rest) := by
  cases indent with
  | none => exact h
  | some width => exact Numeral.ends_cons.mpr (by decide)

/-- No numeral goes on with the end of a list or an object. -/
theorem ends_of_close {mark : Char} (h : mark = ']' ∨ mark = '\x7d') :
    Numeral.Ends (lineBreak depth indent ++ mark :: rest) := by
  rcases h with rfl | rfl
  · exact ends_of_lineBreak (Numeral.ends_cons.mpr (by decide))
  · exact ends_of_lineBreak (Numeral.ends_cons.mpr (by decide))

theorem ends_of_separator : Numeral.Ends (separator depth indent ++ rest) := by
  cases indent <;> exact Numeral.ends_cons.mpr (by decide)

theorem ends_of_writeItems (items : List Value) (h : Numeral.Ends rest) :
    Numeral.Ends (writeItems indent depth items ++ rest) := by
  cases items with
  | nil => exact h
  | cons item items =>
    rw [writeItems, List.append_assoc, List.append_assoc]
    exact ends_of_separator

theorem ends_of_writeFields (fields : List (String × Value)) (h : Numeral.Ends rest) :
    Numeral.Ends (writeFields indent depth fields ++ rest) := by
  cases fields with
  | nil => exact h
  | cons field fields =>
    rw [writeFields, List.append_assoc, List.append_assoc, List.append_assoc]
    exact ends_of_separator

end Ends

/-! ### Lists and objects from their parts -/

section Parts

variable {indent : Indent} {depth : Nat} {rest : List Char} {stack : List Frame}

/-- A value may start here, with the given lists and objects open around it.  This is so where a
value must stand, and also where a list may end instead. -/
def Progress.Awaits (progress : Progress) (stack : List Frame) : Prop :=
  ∀ lexeme, lexeme ≠ .closeList → progress.next? lexeme = open? stack lexeme

theorem awaits_value (stack : List Frame) : Progress.Awaits ⟨.value, stack⟩ stack := by
  intro lexeme _
  rfl

theorem awaits_firstItem (stack : List Frame) :
    Progress.Awaits ⟨.firstItem, stack⟩ (.items [] :: stack) := by
  intro lexeme hne
  -- The end of the list is all that is admitted besides a value.
  cases lexeme with
  | closeList => contradiction
  | _ => rfl

/-- Reading the written form of a value, wherever one may start, comes to the place after it, if no
numeral goes on there. -/
def ReadsBack (value : Value) : Prop :=
  ∀ (indent : Indent) (depth : Nat) {progress : Progress} {stack : List Frame} {rest : List Char},
    progress.Awaits stack → Numeral.Ends rest →
      progress.reads (writeChars indent depth value ++ rest) =
        Progress.reads ⟨.following value, stack⟩ rest

/-- The items after one that has been read, and the end of their list. -/
theorem reads_writeItems {items : List Value} (hitems : ∀ item ∈ items, ReadsBack item)
    (before : List Value) (item : Value) :
    Progress.reads ⟨.following item, .items before :: stack⟩
        (writeItems indent (depth + 1) items ++ (lineBreak depth indent ++ ']' :: rest)) =
      Progress.reads ⟨.following (.list (before.reverse ++ item :: items)), stack⟩ rest := by
  have hend : Numeral.Ends (lineBreak depth indent ++ ']' :: rest) := ends_of_close (.inl rfl)
  induction items generalizing before item with
  | nil =>
    rw [writeItems, List.nil_append, reads_lineBreak, ← List.reverse_cons]
    exact reads_lexeme rfl rfl rfl
  | cons next items ih =>
    obtain ⟨hnext, hitems⟩ := List.forall_mem_cons.mp hitems
    rw [writeItems, List.append_assoc, List.append_assoc, reads_separator rfl,
      hnext _ _ (awaits_value _) (ends_of_writeItems items hend), ih hitems,
      List.reverse_cons, List.append_assoc, List.singleton_append]

/-- The entries after one that has been read, and the end of their object. -/
theorem reads_writeFields {fields : List (String × Value)}
    (hfields : ∀ field ∈ fields, ReadsBack field.2) (before : List (String × Value)) (key : String)
    (value : Value) (hkeys : Value.Ascending (before ++ (key, value) :: fields)) :
    Progress.reads ⟨.following value, .fields before key :: stack⟩
        (writeFields indent (depth + 1) fields ++ (lineBreak depth indent ++ '\x7d' :: rest)) =
      Progress.reads ⟨.following (.object (before ++ (key, value) :: fields)), stack⟩ rest := by
  have hend : Numeral.Ends (lineBreak depth indent ++ '\x7d' :: rest) := ends_of_close (.inr rfl)
  induction fields generalizing before key value with
  | nil =>
    rw [writeFields, List.nil_append, reads_lineBreak, ← Value.put_of_ascending hkeys]
    exact reads_lexeme rfl rfl rfl
  | cons next fields ih =>
    obtain ⟨other, held⟩ := next
    obtain ⟨hnext, hfields⟩ := List.forall_mem_cons.mp hfields
    have hput := Value.put_of_ascending hkeys
    -- The entry before the comma joins those that have been read.
    have hsplit := List.append_cons before (key, value) ((other, held) :: fields)
    rw [hsplit, ← hput] at hkeys ⊢
    rw [← ih hfields _ _ _ hkeys,
      ← hnext indent (depth + 1) (awaits_value _) (ends_of_writeFields fields hend), ← reads_key,
      writeFields]
    simp only [List.append_assoc, List.cons_append]
    exact reads_separator rfl

/-- A list is read from its items. -/
theorem ReadsBack.list {items : List Value} (h : ∀ item ∈ items, ReadsBack item) :
    ReadsBack (.list items) := by
  intro indent depth progress stack rest hawaits _
  have hopen := hawaits .openList nofun
  cases items with
  | nil => exact (reads_lexeme rfl rfl hopen).trans (reads_lexeme rfl rfl rfl)
  | cons item items =>
    obtain ⟨hitem, hitems⟩ := List.forall_mem_cons.mp h
    have hend : Numeral.Ends (lineBreak depth indent ++ ']' :: rest) := ends_of_close (.inl rfl)
    calc
      _ = Progress.reads ⟨.firstItem, stack⟩ (lineBreak (depth + 1) indent ++
            (writeChars indent (depth + 1) item ++
              (writeItems indent (depth + 1) items ++
                (lineBreak depth indent ++ ']' :: rest)))) := by
        rw [writeChars]
        simp only [List.append_assoc, List.cons_append, List.nil_append]
        exact reads_lexeme rfl rfl hopen
      _ = Progress.reads ⟨.following item, .items [] :: stack⟩
            (writeItems indent (depth + 1) items ++ (lineBreak depth indent ++ ']' :: rest)) :=
        reads_lineBreak.trans
          (hitem indent _ (awaits_firstItem stack) (ends_of_writeItems items hend))
      _ = _ := reads_writeItems hitems [] item

/-- An object is read from its entries. -/
theorem ReadsBack.object {fields : List (String × Value)} (hkeys : Value.Ascending fields)
    (h : ∀ field ∈ fields, ReadsBack field.2) : ReadsBack (.object fields) := by
  intro indent depth progress stack rest hawaits _
  have hopen := hawaits .openObject nofun
  cases fields with
  | nil => exact (reads_lexeme rfl rfl hopen).trans (reads_lexeme rfl rfl rfl)
  | cons field fields =>
    obtain ⟨key, value⟩ := field
    obtain ⟨hvalue, hfields⟩ := List.forall_mem_cons.mp h
    have hend : Numeral.Ends (lineBreak depth indent ++ '\x7d' :: rest) := ends_of_close (.inr rfl)
    calc
      _ = Progress.reads ⟨.key true [], stack⟩ (lineBreak (depth + 1) indent ++
            (writeText key ++ ':' :: ' ' :: (writeChars indent (depth + 1) value ++
              (writeFields indent (depth + 1) fields ++
                (lineBreak depth indent ++ '\x7d' :: rest))))) := by
        rw [writeChars]
        simp only [List.append_assoc, List.cons_append, List.nil_append]
        exact reads_lexeme rfl rfl hopen
      _ = Progress.reads ⟨.following value, .fields [] key :: stack⟩
            (writeFields indent (depth + 1) fields ++ (lineBreak depth indent ++ '\x7d' :: rest)) :=
        (reads_lineBreak.trans reads_key).trans
          (hvalue indent _ (awaits_value _) (ends_of_writeFields fields hend))
      _ = _ := reads_writeFields hfields [] key value hkeys

end Parts

/-! ### Any value -/

/-- **Reading a written value comes to the place after the value.** -/
theorem reads_writeChars {value : Value} (h : value.Exact) : ReadsBack value := by
  induction h with
  | null =>
    intro indent depth progress stack rest hawaits _
    exact reads_lexeme rfl rfl (hawaits (.simple .null) nofun)
  | bool b =>
    intro indent depth progress stack rest hawaits _
    have hnext := hawaits (.simple (.bool b)) nofun
    cases b with
    | false => exact reads_lexeme rfl rfl hnext
    | true => exact reads_lexeme rfl rfl hnext
  | int n =>
    -- Only a number has to be told where it ends.
    intro indent depth progress stack rest hawaits hrest
    obtain ⟨c, tail, htext, hblank, hread⟩ := read_digits n hrest
    rw [writeChars, htext]
    exact reads_lexeme hblank hread (hawaits (.simple (.int n)) nofun)
  | text s =>
    intro indent depth progress stack rest hawaits _
    rw [writeChars]
    exact reads_writeText (hawaits (.text s) nofun)
  | list _ ih => exact ReadsBack.list ih
  | object hkeys _ ih => exact ReadsBack.object hkeys ih

/-! ### Characters of a written value -/

/-- The characters that written forms are made of: printable ASCII, and line feeds where lines are
broken. -/
def IsWritten (indent : Indent) (c : Char) : Prop :=
  (' ' ≤ c ∧ c ≤ '~') ∨ (c = '\n' ∧ indent.isSome = true)

section Characters

variable {indent : Indent} {depth : Nat} {c : Char}

theorem mem_lineBreak (h : c ∈ lineBreak depth indent) : IsWritten indent c := by
  cases indent with
  | none => contradiction
  | some width =>
    rw [lineBreak, List.mem_cons, List.mem_replicate] at h
    rcases h with rfl | ⟨-, rfl⟩
    · exact Or.inr ⟨rfl, rfl⟩
    · exact Or.inl (by decide)

theorem mem_separator (h : c ∈ separator depth indent) : IsWritten indent c := by
  have hprintable : ∀ mark ∈ [',', ' '], ' ' ≤ mark ∧ mark ≤ '~' := by simp
  cases indent with
  | none => exact Or.inl (hprintable c h)
  | some width =>
    rcases List.mem_cons.mp h with rfl | hbreak
    · exact Or.inl (by decide)
    · exact mem_lineBreak hbreak

theorem isWritten_of_mem {text : List Char}
    (h : ∀ c ∈ text, ' ' ≤ c ∧ c ≤ '~') : ∀ c ∈ text, IsWritten indent c := by
  intro c hc
  exact Or.inl (h c hc)

theorem mem_writeItems {items : List Value}
    (h : ∀ item ∈ items, ∀ depth, ∀ c ∈ writeChars indent depth item, IsWritten indent c) :
    ∀ c ∈ writeItems indent depth items, IsWritten indent c := by
  induction items with
  | nil => exact List.forall_mem_nil _
  | cons item items ih =>
    obtain ⟨hitem, hitems⟩ := List.forall_mem_cons.mp h
    rw [writeItems, List.forall_mem_append, List.forall_mem_append]
    exact ⟨⟨fun c => mem_separator, hitem depth⟩, ih hitems⟩

theorem mem_key (key : String) {rest : List Char} (h : ∀ c ∈ rest, IsWritten indent c) :
    ∀ c ∈ writeText key ++ ':' :: ' ' :: rest, IsWritten indent c := by
  rw [List.forall_mem_append, List.forall_mem_cons, List.forall_mem_cons]
  have htext : ∀ c ∈ writeText key, IsWritten indent c := isWritten_of_mem fun c => mem_writeText
  exact ⟨htext, Or.inl (by decide), Or.inl (by decide), h⟩

theorem mem_writeFields {fields : List (String × Value)}
    (h : ∀ field ∈ fields, ∀ depth, ∀ c ∈ writeChars indent depth field.2, IsWritten indent c) :
    ∀ c ∈ writeFields indent depth fields, IsWritten indent c := by
  induction fields with
  | nil => exact List.forall_mem_nil _
  | cons field fields ih =>
    obtain ⟨hfield, hfields⟩ := List.forall_mem_cons.mp h
    rw [writeFields, List.forall_mem_append, List.append_assoc, List.forall_mem_append]
    exact ⟨⟨fun c => mem_separator, mem_key _ (hfield depth)⟩, ih hfields⟩

end Characters

/-- **A written value is printable ASCII but for its line breaks.** -/
theorem mem_writeChars {value : Value} (h : value.Exact) (indent : Indent) (depth : Nat) :
    ∀ c ∈ writeChars indent depth value, IsWritten indent c := by
  have hbreak : ∀ depth, ∀ c ∈ lineBreak depth indent, IsWritten indent c :=
    fun depth c => mem_lineBreak
  have hmark : ∀ mark ∈ ['[', ']', '\x7b', '\x7d'], IsWritten indent mark :=
    isWritten_of_mem (by simp)
  simp only [List.forall_mem_cons] at hmark
  obtain ⟨hopenList, hcloseList, hopenObject, hcloseObject, -⟩ := hmark
  induction h generalizing depth with
  | null =>
    rw [writeChars]
    exact isWritten_of_mem (by simp)
  | bool b =>
    cases b with
    | false =>
      rw [writeChars]
      exact isWritten_of_mem (by simp)
    | true =>
      rw [writeChars]
      exact isWritten_of_mem (by simp)
  | int n =>
    rw [writeChars]
    exact isWritten_of_mem fun c => Integer.mem_digits
  | text s =>
    rw [writeChars]
    exact isWritten_of_mem fun c => mem_writeText
  | @list items _ ih =>
    cases items with
    | nil =>
      rw [writeChars]
      exact isWritten_of_mem (by simp)
    | cons item items =>
      obtain ⟨hitem, hitems⟩ := List.forall_mem_cons.mp ih
      rw [writeChars]
      simp only [List.forall_mem_append, List.forall_mem_cons]
      exact ⟨⟨⟨⟨⟨hopenList, hbreak _⟩, hitem _⟩, mem_writeItems hitems⟩, hbreak _⟩, hcloseList,
        List.forall_mem_nil _⟩
  | @object fields _ _ ih =>
    cases fields with
    | nil =>
      rw [writeChars]
      exact isWritten_of_mem (by simp)
    | cons field fields =>
      obtain ⟨key, value⟩ := field
      obtain ⟨hvalue, hfields⟩ := List.forall_mem_cons.mp ih
      have hfield := mem_key key (hvalue (depth + 1))
      rw [writeChars, List.append_assoc _ (writeText key)]
      simp only [List.forall_mem_append, List.forall_mem_cons] at hfield ⊢
      exact ⟨⟨⟨⟨⟨hopenObject, hbreak _⟩, hfield⟩, mem_writeFields hfields⟩, hbreak _⟩, hcloseObject,
        List.forall_mem_nil _⟩

/-! ### Reading what has been written -/

/-- **A written value is read as that value.** -/
theorem read_write {value : Value} (h : value.Exact) (indent : Indent) :
    read (write indent value) = .ok value := by
  have hreads : Progress.start.reads (writeChars indent 0 value) = .ok ⟨.following value, []⟩ := by
    have hstart := reads_writeChars h indent 0 (awaits_value []) Numeral.ends_nil
    rw [List.append_nil, reads_nil] at hstart
    exact hstart
  -- The byte order mark is no printable character.
  have hmark : (writeChars indent 0 value).head? ≠ some '\uFEFF' := by
    intro hhead
    have hwritten := mem_writeChars h indent 0 _ (List.mem_of_head? hhead)
    revert hwritten
    simp [IsWritten]
  have hchars : readChars (writeChars indent 0 value) = .ok value := by
    rw [readChars, if_neg hmark]
    rw [Progress.reads] at hreads
    simp only [hreads]
    rfl
  rw [read, write, String.toList_ofList, hchars]
  rfl

end Json

end TokenStream
