import Mathlib.Data.List.DropRight
import TokenStream.Proofs.WrittenIntegers
import TokenStream.Scanner.Failure

/-!
# The places of errors

The place of an error is meant to be its file and its offset, with a colon between them if there are
both.  It is made from parts that end in colons, and all the colons at its end are then taken off.
The offset ends in a digit, so nothing is lost where there is one.  But a file alone loses the
colons of its own name: this is the one case in which the message is not the one that is meant.

## Main definitions

* `withoutColons` — a text without the colons at its end.
* `ScanError.file?` — the file of an error, if it has a name.
* `ScanError.plainMessage` — the message that is meant.
* `ScanError.LosesColons` — an error with a file alone, whose name ends in a colon.

## Main results

* `ScanError.location_of_offset`, `ScanError.location_of_file` — the places with and without an
  offset.
* `ScanError.message_eq_plainMessage_iff` — **the message is the one that is meant exactly if no
  colon of a file name is lost**.
* `ScanError.message_of_colon_file` — a file name that loses its colon.
-/

namespace TokenStream

/-- A text without the colons at its end. -/
def withoutColons (text : List Char) : List Char := text.rdropWhile (· == ':')

theorem withoutColons_concat_colon (text : List Char) :
    withoutColons (text ++ [':']) = withoutColons text :=
  List.rdropWhile_concat_pos _ _ _ rfl

/-- Nothing is taken off exactly if there is no colon at the end. -/
theorem withoutColons_eq_self_iff {text : List Char} :
    withoutColons text = text ↔ text.getLast? ≠ some ':' := by
  rw [withoutColons, List.rdropWhile_eq_self_iff]
  constructor
  · intro h hlast
    obtain ⟨front, rfl⟩ := List.getLast?_eq_some_iff.mp hlast
    simpa using h (by simp)
  · intro h hne hcolon
    rw [List.getLast?_eq_some_getLast hne] at h
    exact h (congrArg some (eq_of_beq hcolon))

/-- What is taken off are colons. -/
theorem exists_replicate_colons (text : List Char) :
    ∃ n, text = withoutColons text ++ List.replicate n ':' := by
  refine ⟨(text.rtakeWhile (· == ':')).length, ?_⟩
  have hcolons : text.rtakeWhile (· == ':') =
      List.replicate (text.rtakeWhile (· == ':')).length ':' := by
    refine List.eq_replicate_iff.mpr ⟨rfl, fun c hc => ?_⟩
    have hcolon := List.mem_rtakeWhile_imp hc
    exact eq_of_beq hcolon
  rw [← hcolons, withoutColons, List.rdropWhile_append_rtakeWhile]

theorem getLast?_withoutColons (text : List Char) : (withoutColons text).getLast? ≠ some ':' :=
  withoutColons_eq_self_iff.mp (List.rdropWhile_idempotent _ _)

namespace Integer

theorem ne_colon_of_mem_digits {n : Int} {c : Char} (h : c ∈ digits n) : c ≠ ':' := by
  have hdigit : ∀ m : Nat, c ∈ Nat.toDigits 10 m → c ≠ ':' := by
    rintro m hmem rfl
    have := Nat.isDigit_of_mem_toDigits (by decide) (by decide) hmem
    contradiction
  cases n with
  | ofNat m => exact hdigit m h
  | negSucc m =>
    rcases List.mem_cons.mp h with rfl | hmem
    · decide
    · exact hdigit _ hmem

theorem digits_ne_nil (n : Int) : digits n ≠ [] := by
  cases n with
  | ofNat m =>
    obtain ⟨c, ds, hdigits, -⟩ := exists_toDigits_eq_cons m
    rw [digits, hdigits]
    exact List.cons_ne_nil c ds
  | negSucc m => exact List.cons_ne_nil _ _

end Integer

namespace ScanError

/-- The file of an error, if it has a name: an empty name is none. -/
def file? (error : ScanError) : Option String := error.sourceFile.filter (!·.isEmpty)

/-- The message that is meant: the place, a space, and what is wrong.  The place is the file and the
offset with a colon between them, or the one that is there; without a place there is no space. -/
def plainMessage (error : ScanError) : String :=
  match error.file?, error.offset with
  | some file, some offset => file ++ ":" ++ Integer.text offset ++ " " ++ error.detail
  | some file, none => file ++ " " ++ error.detail
  | none, some offset => Integer.text offset ++ " " ++ error.detail
  | none, none => error.detail

/-- There is a file and no offset, and the name of the file ends in a colon. -/
def LosesColons (error : ScanError) : Prop :=
  error.offset = none ∧ ∃ file, error.file? = some file ∧ file.toList.getLast? = some ':'

/-! ### Places -/

section Places

variable {sourceFile : Option String}

/-- A place that has any parts is these parts without the colons at their end, and a space. -/
theorem location_eq {offset : Option Int} (hne : placeParts sourceFile offset ≠ []) :
    location sourceFile offset = withoutColons (placeParts sourceFile offset) ++ [' '] := by
  unfold location
  split
  · contradiction
  · rfl

/-- Where there is an offset, the colon behind it is all that is taken off. -/
theorem location_of_offset (sourceFile : Option String) (offset : Int) :
    location sourceFile (some offset) =
      placeParts sourceFile none ++ Integer.digits offset ++ [' '] := by
  have hparts : placeParts sourceFile (some offset) =
      placeParts sourceFile none ++ Integer.digits offset ++ [':'] := by
    simp [placeParts]
  have hlast : (placeParts sourceFile none ++ Integer.digits offset).getLast? ≠ some ':' := by
    rw [List.getLast?_append_of_ne_nil _ (Integer.digits_ne_nil offset)]
    intro hcolon
    exact Integer.ne_colon_of_mem_digits (List.mem_of_getLast? hcolon) rfl
  rw [location_eq (by simp [hparts]), hparts, withoutColons_concat_colon,
    withoutColons_eq_self_iff.mpr hlast]

/-- A file alone loses the colons at its end. -/
theorem location_of_file {file : String} (hfile : file.isEmpty = false) :
    location (some file) none = withoutColons file.toList ++ [' '] := by
  have hparts : placeParts (some file) none = file.toList ++ [':'] := by
    simp [placeParts, hfile]
  rw [location_eq (by simp [hparts]), hparts, withoutColons_concat_colon]

end Places

/-! ### Messages -/

section Messages

variable {error : ScanError} {file : String}

/-- The parts of a place without an offset are the file and a colon, if there is a file. -/
theorem placeParts_eq (error : ScanError) :
    placeParts error.sourceFile none =
      match error.file? with
      | none => []
      | some file => file.toList ++ [':'] := by
  unfold file?
  cases error.sourceFile with
  | none => rfl
  | some file => cases hempty : file.isEmpty <;> simp [placeParts, Option.filter, hempty]

theorem message_of_offset {offset : Int} (h : error.offset = some offset) :
    error.message = error.plainMessage := by
  rw [message, plainMessage, h, location_of_offset, placeParts_eq]
  cases error.file? with
  | none => simp [Integer.text]
  | some file => simp [String.ext_iff, Integer.text]

theorem message_of_nowhere (hoffset : error.offset = none) (hfile : error.file? = none) :
    error.message = error.plainMessage := by
  have hparts := placeParts_eq error
  rw [hfile] at hparts
  rw [message, plainMessage, hoffset, hfile, location, hparts]
  simp

/-- The message of an error with a file alone. -/
theorem message_of_file (hoffset : error.offset = none) (hfile : error.file? = some file) :
    error.message = String.ofList (withoutColons file.toList) ++ " " ++ error.detail := by
  obtain ⟨hsource, hnamed⟩ := Option.filter_eq_some_iff.mp hfile
  rw [Bool.not_eq_true'] at hnamed
  rw [message, hoffset, hsource, location_of_file hnamed]
  simp

theorem message_of_file_eq_iff (hoffset : error.offset = none) (hfile : error.file? = some file) :
    error.message = error.plainMessage ↔ file.toList.getLast? ≠ some ':' := by
  rw [message_of_file hoffset hfile, plainMessage, hoffset, hfile, ← withoutColons_eq_self_iff]
  simp [String.ext_iff]

/-- **The message is the one that is meant exactly if no colon of a file name is lost.**  Where
colons are lost, these are all that is missing: the name comes without the colons at its end. -/
theorem message_eq_plainMessage_iff (error : ScanError) :
    (error.message = error.plainMessage ↔ ¬ error.LosesColons) ∧
      ∀ file, error.file? = some file → error.offset = none →
        ∃ stem n, file.toList = stem ++ List.replicate n ':' ∧ stem.getLast? ≠ some ':' ∧
          error.message = String.ofList stem ++ " " ++ error.detail := by
  constructor
  · cases hoffset : error.offset with
    | some offset =>
      refine iff_of_true (message_of_offset hoffset) ?_
      rintro ⟨hnone, -⟩
      rw [hoffset] at hnone
      contradiction
    | none =>
      cases hfile : error.file? with
      | none =>
        refine iff_of_true (message_of_nowhere hoffset hfile) ?_
        rintro ⟨-, file, hsome, -⟩
        rw [hfile] at hsome
        contradiction
      | some file =>
        rw [message_of_file_eq_iff hoffset hfile, LosesColons, hfile]
        simp [hoffset]
  · intro file hfile hoffset
    obtain ⟨n, hstem⟩ := exists_replicate_colons file.toList
    exact ⟨_, n, hstem, getLast?_withoutColons file.toList, message_of_file hoffset hfile⟩

/-- Of a file name that consists of colons only the space behind it is left. -/
theorem message_of_colons :
    let error : ScanError := ⟨.stated "m", none, some "::"⟩
    error.file? = some "::" ∧ error.offset = none ∧
      ∃ stem n, "::".toList = stem ++ List.replicate n ':' ∧ stem.getLast? ≠ some ':' ∧
        error.message = String.ofList stem ++ " " ++ error.detail :=
  ⟨by decide, rfl, (message_eq_plainMessage_iff _).2 "::" (by decide) rfl⟩

/-- The colon at the end of a file name is lost where there is no offset. -/
theorem message_of_colon_file :
    let error : ScanError := ⟨.stated "m", none, some "C:"⟩
    error.plainMessage = "C: m" ∧ error.message = "C m" ∧ error.message ≠ error.plainMessage := by
  decide

end Messages

end ScanError

end TokenStream
