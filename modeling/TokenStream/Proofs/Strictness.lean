import Mathlib.Data.List.TakeWhile
import TokenStream.Proofs.Draining

/-!
# Strict scans and limits on the length

A strict scan or one with a limit yields no token that the scan with the default settings does
not yield, in the same order and from the start on.  What differs is where it ends, and that an
end before that of the source is an error which names its place.

## Main results

* `stopsAtUnknown_drainRunning` — a strict scan stops before the first unknown character.
* `scan_refines_default` — **every scan yields the tokens of the default scan up to where its own
  settings stop it**.
-/

namespace TokenStream

/-- What a strict scan comes to, given all the tokens of the source: those before the first unknown
character, and an error there. -/
def StopsAtUnknown (sourceFile : Option String) (all : List Token) (drained : Drained) : Prop :=
  drained.tokens = all.takeWhile (·.kind ≠ .unknown) ∧
    match all.find? (·.kind = .unknown) with
    | none => drained.stopped = none
    | some token => drained.scanner.position = token.offset ∧
      ∃ error, drained.stopped = some (.source error) ∧ error.offset = some token.offset ∧
        error.detail = "Unexpected character " ++ quoted token.text ∧
        error.sourceFile = sourceFile

/-- Going strictly through the pieces of a source yields the tokens before the first unknown
character, and stops there. -/
theorem stopsAtUnknown_drainRunning {scanner : Scanner} {ps : List Piece}
    (hcursor : scanner.cursor = ⟨0, ps⟩) (hstrict : scanner.settings.isStrict = true)
    (hps : ps = pieces Rule.table none scanner.source.toList) :
    StopsAtUnknown scanner.sourceFile (tokensOf 0 ps) scanner.drainRunning := by
  have hsub : ∀ {some : List Piece}, (∀ piece ∈ some, piece ∈ ps) →
      ∀ piece ∈ some, piece ∈ pieces Rule.table none scanner.source.toList := by
    intro some hsome piece hpiece
    exact hps ▸ hsome piece hpiece
  have hdrained : scanner.drainRunning =
      ⟨(Cursor.drainFrom true 0 ps).tokens,
        (Cursor.drainFrom true 0 ps).refused.map
          (scanner.refusal (Cursor.drainFrom true 0 ps).cursor.offset),
        { scanner with cursor := (Cursor.drainFrom true 0 ps).cursor },
        (Cursor.drainFrom true 0 ps).events⟩ := by
    simp only [Scanner.drainRunning, Cursor.drain, hcursor, hstrict]
  rcases Cursor.drainFrom_strict_cases 0 ps with
    ⟨hnone, hsame⟩ | ⟨passed, c, ahead, hsplit, hpassed, hstop⟩
  · have hkind : ∀ token ∈ tokensOf 0 ps, token.kind ≠ .unknown := fun token htoken =>
      kind_ne_unknown_of_mem_tokensOf (hsub fun _ h => h) hnone htoken
    rw [hdrained, hsame, Cursor.drainFrom_lenient]
    refine ⟨?_, ?_⟩
    · exact (List.takeWhile_eq_self_iff.mpr (by simpa using hkind)).symm
    · rw [List.find?_eq_none.mpr (by simpa using hkind)]
      rfl
  · have hkind : ∀ token ∈ tokensOf 0 passed, token.kind ≠ .unknown := fun token htoken =>
      kind_ne_unknown_of_mem_tokensOf (hsub fun piece h => by rw [hsplit]; simp [h]) hpassed htoken
    have hall : tokensOf 0 ps = tokensOf 0 passed ++
        ⟨.unknown, String.ofList [c], widthOf passed⟩ ::
          tokensOf (widthOf passed + 1) ahead := by
      rw [hsplit, tokensOf_append, tokensOf_cons, Nat.zero_add]
      rfl
    rw [hdrained, hstop, hall]
    refine ⟨?_, ?_⟩
    · rw [List.takeWhile_append_of_pos (by simpa using hkind), List.takeWhile_cons_of_neg (by simp),
        List.append_nil]
    · rw [List.find?_append, List.find?_eq_none.mpr (by simpa using hkind), Option.none_or,
        List.find?_cons_of_pos (by simp)]
      simp only [Nat.zero_add]
      exact ⟨rfl, _, rfl, rfl, rfl, rfl⟩

/-- A length passes an integer limit exactly if it does not exceed it. -/
theorem Settings.checkLength_of (strict : Bool) (limit : Option Int) (length : Nat) :
    (Settings.of strict limit).checkLength length =
      if limit.any (· < (length : Int)) then .exceeded (limit.elim .null .int) else .within := by
  cases limit with
  | none => rfl
  | some n => simp [Settings.of, Settings.checkLength]

/-- **Every scan yields the tokens of the default scan up to where its own settings stop it.**  A
limit that the source exceeds stops a scan before the first token, and strictness before the first
unknown character.  A strict scan that does not fail yields all the tokens. -/
theorem scan_refines_default (source : String) (sourceFile : Option String) (strict : Bool)
    (limit : Option Int) :
    let all := (scan source none Settings.default).tokens
    let drained := scan source sourceFile (Settings.of strict limit)
    if limit.any (· < (source.length : Int)) then
      drained.tokens = [] ∧ drained.scanner.position = 0 ∧
        ∃ error, drained.stopped = some (.source error) ∧ error.offset = none ∧
          error.sourceFile = sourceFile
    else if strict = false then drained.tokens = all ∧ drained.stopped = none
    else StopsAtUnknown sourceFile all drained ∧
      (drained.stopped = none → drained.tokens = all) := by
  intro all drained
  have hall : all = tokensOf 0 (pieces Rule.table none source.toList) :=
    scan_default_tokens source none
  let scanner := Scanner.make source sourceFile (Settings.of strict limit)
  have hcheck := Settings.checkLength_of strict limit source.length
  split
  · next hlimit =>
    rw [if_pos hlimit] at hcheck
    have hdrained := Scanner.drain_fresh_of_fault
      (Scanner.lengthFailure?_of_exceeded sourceFile hcheck)
    rw [show drained = _ from hdrained]
    exact ⟨rfl, rfl, _, rfl, rfl, rfl⟩
  · next hlimit =>
    rw [if_neg hlimit] at hcheck
    have hdrained : drained = scanner.drainRunning :=
      Scanner.drain_fresh_of_fits (Scanner.lengthFailure?_of_within sourceFile hcheck)
    rw [hdrained, hall]
    split
    · next hstrict =>
      subst hstrict
      have hlenient := Cursor.drainFrom_lenient 0 (pieces Rule.table none source.toList)
      constructor
      · exact congrArg Cursor.Drain.tokens hlenient
      · exact congrArg (fun way => way.refused.map (scanner.refusal way.cursor.offset)) hlenient
    · next hstrict =>
      have hstops : StopsAtUnknown sourceFile
          (tokensOf 0 (pieces Rule.table none source.toList)) scanner.drainRunning :=
        stopsAtUnknown_drainRunning rfl (Bool.not_eq_false _ ▸ hstrict) rfl
      refine ⟨hstops, fun hstopped => ?_⟩
      -- Without an error there is no unknown character, so no token comes after one.
      obtain ⟨htokens, hfirst⟩ := hstops
      rw [htokens, List.takeWhile_eq_self_iff]
      split at hfirst
      · next hnone => simpa using hnone
      · obtain ⟨-, error, hfailed, -⟩ := hfirst
        rw [hfailed] at hstopped
        contradiction

end TokenStream
