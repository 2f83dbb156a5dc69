import TokenStream.Proofs.Forms
import TokenStream.Proofs.Places
import TokenStream.Scanner.Basic

/-!
# What the settings take from a scan

The default settings let a scan run to the end of its source.  A strict scan goes the same way up
to the first character that no rule recognises, and stops before it; a limit on the length stops
a scan before it starts.  Neither makes a scan yield anything else.

## Main definitions

* `Settings.of` — the settings with a truth value and an integer limit.

## Main results

* `scan_default_tokens`, `scan_default_stopped` — **a scan with the default settings goes through
  all pieces of its source and never fails**.
* `mem_scan_default_iff` — each of its tokens comes from one piece.
* `Cursor.drainFrom_strict_cases` — **a strict scan is the other scan up to the first unknown
  character**.
* `scan_of_known` — without unknown characters and within the limit, any settings do what the
  default settings do.
-/

namespace TokenStream

/-- The settings with a truth value and an integer limit, or none. -/
def Settings.of (strict : Bool) (limit : Option Int) : Settings :=
  ⟨.bool strict, limit.elim .null .int⟩

@[simp] theorem Settings.isStrict_default : Settings.default.isStrict = false := rfl

/-! ### Unknown characters among the tokens -/

/-- No piece of a text is a lexeme with the kind of an unknown character. -/
theorem kind_ne_unknown_of_mem {rules : List Rule} {previous : Option Char} {text : List Char}
    {piece : Piece} (hmem : piece ∈ pieces rules previous text) (hpiece : ∀ c, piece ≠ .unknown c)
    {offset : Nat} {token : Token} (h : piece.token? offset = some token) :
    token.kind ≠ .unknown := by
  obtain ⟨before, c, rest, hheads⟩ := exists_heads_of_mem hmem
  cases hheads with
  | lineEnd ending =>
    cases hcontinued : before == some '\\' with
    | false => rw [hcontinued] at h; cases h; simp
    | true => rw [hcontinued] at h; contradiction
  | blank => contradiction
  | lexeme rule chars => cases h; exact rule.classify_ne_unknown chars
  | unknown => exact absurd rfl (hpiece c)

/-- Where no piece is an unknown character, no token is. -/
theorem kind_ne_unknown_of_mem_tokensOf {rules : List Rule} {previous : Option Char}
    {text : List Char} {ps : List Piece} (hsub : ∀ piece ∈ ps, piece ∈ pieces rules previous text)
    (hps : ∀ piece ∈ ps, ∀ c, piece ≠ .unknown c) {offset : Nat} {token : Token}
    (h : token ∈ tokensOf offset ps) : token.kind ≠ .unknown := by
  obtain ⟨passed, piece, ahead, rfl, htoken⟩ := mem_tokensOf_iff.mp h
  have hmem : piece ∈ passed ++ piece :: ahead := by simp
  exact kind_ne_unknown_of_mem (hsub piece hmem) (hps piece hmem) htoken

namespace Cursor

/-! ### Draining -/

/-- A scan that is not strict goes through all the pieces. -/
theorem drainFrom_lenient (offset : Nat) (ps : List Piece) :
    drainFrom false offset ps =
      ⟨tokensOf offset ps, none, ⟨offset + widthOf ps, []⟩, eventsOf offset ps⟩ := by
  induction ps generalizing offset with
  | nil => rfl
  | cons piece rest ih =>
    have hrefused : piece.refused? false = none := by cases piece <;> rfl
    rw [drainFrom, hrefused]
    simp only [ih, tokensOf_cons, eventsOf_cons, widthOf_cons, Nat.add_assoc]

/-- **A strict scan is the other scan up to the first unknown character**, before which it
stops. -/
theorem drainFrom_strict_cases (offset : Nat) (ps : List Piece) :
    ((∀ piece ∈ ps, ∀ c, piece ≠ .unknown c) ∧
        drainFrom true offset ps = drainFrom false offset ps) ∨
      ∃ passed c ahead, ps = passed ++ .unknown c :: ahead ∧
        (∀ piece ∈ passed, ∀ c', piece ≠ .unknown c') ∧
        drainFrom true offset ps =
          ⟨tokensOf offset passed, some c, ⟨offset + widthOf passed, .unknown c :: ahead⟩,
            eventsOf offset passed⟩ := by
  induction ps generalizing offset with
  | nil => exact .inl ⟨by simp, rfl⟩
  | cons piece rest ih =>
    by_cases hpiece : ∃ c, piece = .unknown c
    · obtain ⟨c, rfl⟩ := hpiece
      exact .inr ⟨[], c, rest, rfl, by simp, rfl⟩
    · have hne : ∀ c, piece ≠ .unknown c := fun c hc => hpiece ⟨c, hc⟩
      -- Any other piece is passed by both scans in the same way.
      have hstep : ∀ strict, piece.refused? strict = none := by
        intro strict
        cases piece with
        | unknown c => exact absurd rfl (hne c)
        | _ => rfl
      rcases ih (offset + piece.width) with ⟨hrest, hsame⟩ | ⟨passed, c, ahead, rfl, hpassed, hstop⟩
      · refine .inl ⟨List.forall_mem_cons.mpr ⟨hne, hrest⟩, ?_⟩
        rw [drainFrom, drainFrom, hstep, hstep, hsame]
      · refine .inr ⟨piece :: passed, c, ahead, rfl, List.forall_mem_cons.mpr ⟨hne, hpassed⟩, ?_⟩
        rw [drainFrom, hstep, hstop]
        simp only [tokensOf_cons, eventsOf_cons, widthOf_cons, Nat.add_assoc]

/-- Where no piece is an unknown character, strictness makes no difference. -/
theorem drainFrom_of_known {ps : List Piece} (strict : Bool) (offset : Nat)
    (h : ∀ piece ∈ ps, ∀ c, piece ≠ .unknown c) :
    drainFrom strict offset ps = drainFrom false offset ps := by
  cases strict with
  | false => rfl
  | true =>
    rcases drainFrom_strict_cases offset ps with ⟨-, hsame⟩ | ⟨passed, c, ahead, rfl, -⟩
    · exact hsame
    · exact absurd rfl (h (.unknown c) (by simp) c)

end Cursor

/-! ### Whole scans -/

namespace Scanner

variable {scanner : Scanner} {failure : Failure}

theorem drain_fresh_of_fault (h : scanner.lengthFailure? = some failure) :
    scanner.drain .fresh = ⟨[], some failure, scanner, []⟩ := by
  rw [drain, h]

theorem drain_fresh_of_fits (h : scanner.lengthFailure? = none) :
    scanner.drain .fresh = scanner.drainRunning := by
  rw [drain, h]

/-- A source that exceeds the limit is at fault, whatever it holds. -/
theorem lengthFailure?_of_exceeded {settings : Settings} {source : String} {limit : Value}
    (sourceFile : Option String) (h : settings.checkLength source.length = .exceeded limit) :
    (make source sourceFile settings).lengthFailure? =
      some (.source ⟨.tooLong source.length limit, none, sourceFile⟩) := by
  simp only [lengthFailure?, make, withRules, h]

theorem lengthFailure?_of_within {settings : Settings} {source : String}
    (sourceFile : Option String) (h : settings.checkLength source.length = .within) :
    (make source sourceFile settings).lengthFailure? = none := by
  simp only [lengthFailure?, make, withRules, h]

end Scanner

/-- A fresh stream with the default settings goes through all pieces of its source. -/
theorem Scanner.drain_withRules_default (rules : List Rule) (source : String)
    (sourceFile : Option String) :
    (withRules rules source sourceFile Settings.default).drain .fresh =
      ⟨tokensOf 0 (pieces rules none source.toList), none,
        { withRules rules source sourceFile Settings.default with cursor := ⟨source.length, []⟩ },
        eventsOf 0 (pieces rules none source.toList)⟩ := by
  have hdrain := Cursor.drainFrom_lenient 0 (pieces rules none source.toList)
  rw [widthOf_pieces, Nat.zero_add, String.length_toList] at hdrain
  have hfits : (withRules rules source sourceFile Settings.default).lengthFailure? = none := rfl
  rw [drain_fresh_of_fits hfits]
  simp only [withRules, drainRunning, Cursor.drain, Settings.isStrict_default, hdrain]
  rfl

/-- A scan with the default settings goes through all pieces of its source. -/
theorem scan_default (source : String) (sourceFile : Option String) :
    scan source sourceFile Settings.default =
      ⟨tokensOf 0 (pieces Rule.table none source.toList), none,
        { Scanner.make source sourceFile Settings.default with
          cursor := ⟨source.length, []⟩ },
        eventsOf 0 (pieces Rule.table none source.toList)⟩ :=
  Scanner.drain_withRules_default Rule.table source sourceFile

/-- The tokens of a scan with the default settings. -/
theorem scan_default_tokens (source : String) (sourceFile : Option String) :
    (scan source sourceFile Settings.default).tokens =
      tokensOf 0 (pieces Rule.table none source.toList) := by
  rw [scan_default]

/-- A token of a scan with the default settings comes from one piece of the source. -/
theorem mem_scan_default_iff {source : String} {sourceFile : Option String} {token : Token} :
    token ∈ (scan source sourceFile Settings.default).tokens ↔
      ∃ passed piece ahead, pieces Rule.table none source.toList = passed ++ piece :: ahead ∧
        piece.token? (widthOf passed) = some token := by
  rw [scan_default_tokens, mem_tokensOf_iff]
  simp only [Nat.zero_add]

/-- A scan with the default settings never fails. -/
theorem scan_default_stopped (source : String) (sourceFile : Option String) :
    (scan source sourceFile Settings.default).stopped = none := by
  rw [scan_default]

/-- A scan of a source without unknown characters whose length is within the limit does what the
scan with the default settings does. -/
theorem scan_of_known {settings : Settings} {source : String} (sourceFile : Option String)
    (hcheck : settings.checkLength source.length = .within)
    (hknown : ∀ piece ∈ pieces Rule.table none source.toList, ∀ c, piece ≠ .unknown c) :
    (scan source sourceFile settings).tokens =
        (scan source sourceFile Settings.default).tokens ∧
      (scan source sourceFile settings).stopped = none := by
  let scanner := Scanner.make source sourceFile settings
  have hdrained : scan source sourceFile settings = scanner.drainRunning :=
    Scanner.drain_fresh_of_fits (Scanner.lengthFailure?_of_within sourceFile hcheck)
  have hdrain : scanner.cursor.drain scanner.settings.isStrict = _ :=
    (Cursor.drainFrom_of_known _ 0 hknown).trans (Cursor.drainFrom_lenient 0 _)
  rw [hdrained, scan_default_tokens]
  constructor
  · exact congrArg Cursor.Drain.tokens hdrain
  · exact congrArg (fun way => way.refused.map (scanner.refusal way.cursor.offset)) hdrain

end TokenStream
