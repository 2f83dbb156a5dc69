import TokenStream.Proofs.AlikeSessions

/-!
# Settings are captured

A scanner keeps the settings with which it is made.  Whatever happens to the active settings later,
in its thread or in another, before or after its first pull, its streams yield what they would have
yielded anyway.  So all that a scanner shows in a session is settled by the work that is done in it,
and by the settings that are active at the one moment in which the scanner is made; and if it is
made with settings of its own, by the work alone.

## Main definitions

* `Deed.sight`, `sightsOf` — what a scanner shows in a deed, and in all deeds of a session.

## Main results

* `settings_captured` — **if the same work is done in two sessions, a scanner that captures the same
  settings in both shows the same in both**.
-/

namespace TokenStream

/-! ### What a scanner shows -/

/-- The deeds of a session. -/
def sessionDeeds (steps : List Step) : List Deed := deedsOf steps (runSession steps)

/-- What a scanner shows in a deed. -/
structure Sight where
  /-- The answer of one of its streams: tokens, an error or an end. -/
  answer : Option Answer
  /-- How far it has got, under the name by which it is known. -/
  positions : List (String × Nat)

/-- What the scanner that the deed with a number has made shows in a deed after some work. -/
def Deed.sight (number : Nat) (past : List Action) (deed : Deed) : Sight where
  answer :=
    if deed.action.subject?.bind (streamMaker? · past) = some number then some deed.answer
    else none
  positions := deed.standing.positions.filter fun shown =>
    (makers shown.1 (deed.action :: past)).getLast? = some number

/-- What the scanner that the deed with a number has made shows in deeds in a row. -/
def sightsOf (number : Nat) : List Action → List Deed → List Sight
  | _, [] => []
  | past, deed :: deeds => deed.sight number past :: sightsOf number (deed.action :: past) deeds

theorem map_action_sessionDeeds (steps : List Step) :
    (sessionDeeds steps).map Deed.action = workOf steps :=
  Session.work_run Session.start steps

namespace Session

variable {session other : Session} {number : Nat} {past : List Action}

/-- In states that are alike, a scanner shows the same in the same work. -/
theorem Alike.sightsOf_eq {last last' : Session} {deeds deeds' : List Deed}
    (h : session.Alike number past other) (hdoes : session.Does deeds last)
    (hdoes' : other.Does deeds' last') (hwork : deeds.map Deed.action = deeds'.map Deed.action)
    (hcaptured : ∀ place, past.length + place = number →
      (deeds.map Deed.action)[place]?.any Action.namesSettings = true ∨
        deeds[place]?.map (·.standing.settings) = deeds'[place]?.map (·.standing.settings)) :
    sightsOf number past deeds = sightsOf number past deeds' := by
  -- Along the deeds of the one session; the other keeps step, since its work is the same.
  induction hdoes generalizing other deeds' past with
  | rest same =>
    obtain rfl : deeds' = [] := List.map_eq_nil_iff.mp hwork.symm
    rfl
  | @deed session between last action deeds same work later ih =>
    cases hdoes' with
    | rest same' => contradiction
    | @deed _ between' _ action' deeds' same' work' later' =>
      obtain ⟨rfl, hrest⟩ := List.cons.inj hwork
      have hbetween := h.of_sameWork same same'
      obtain ⟨hafter, hanswer⟩ := hbetween.perform work fun hlast => by
        have hcaptured := hcaptured 0 hlast
        simpa [standing, active_perform _ work] using hcaptured
      have hlater := ih hafter later' hrest fun place hplace => by
        have hcaptured := hcaptured (place + 1) (by simp at hplace; omega)
        simpa using hcaptured
      simp only [sightsOf, hlater, Deed.sight, List.cons.injEq, Sight.mk.injEq, and_true]
      refine ⟨?_, hafter.positions⟩
      split
      · next hmaker => rw [hanswer hmaker]
      · rfl

end Session

/-- **Settings are captured.**  In two sessions in which the same work is done, whatever is done
with settings in either, take the scanner that a deed makes, for a stream of its own or under a
name.  If it is made with settings of its own, or if the same settings are active when it is made,
then in each deed its streams answer the same in both sessions, with tokens, errors and ends, and it
has got equally far. -/
theorem settings_captured (steps others : List Step) (hwork : workOf steps = workOf others)
    (number : Nat)
    (hcaptured : (workOf steps)[number]?.any Action.namesSettings = true ∨
      (sessionDeeds steps)[number]?.map (·.standing.settings) =
        (sessionDeeds others)[number]?.map (·.standing.settings)) :
    sightsOf number [] (sessionDeeds steps) = sightsOf number [] (sessionDeeds others) := by
  refine (Session.alike_start number).sightsOf_eq (Session.does_run _ steps)
    (Session.does_run _ others) ?_ fun place hplace => ?_
  · exact (map_action_sessionDeeds steps).trans (hwork.trans (map_action_sessionDeeds others).symm)
  · obtain rfl : place = number := by simpa using hplace
    rw [← map_action_sessionDeeds] at hcaptured
    exact hcaptured

/-- A scanner of a thread, made with the active settings: in the one session they are strict when it
is made and no longer when it is read, in the other they stay as they are, and a context is
entered before. -/
theorem settings_captured_in_thread :
    let strict : Value := .object [("strict", .bool true)]
    let steps : List Step := [.thread [.act (.set strict), .act (.make "a" "x ?" none none),
      .act .reset, .act (.stream "a" "s")], .act (.next "s"), .act (.next "s")]
    let others : List Step := [.act (.enter "c" strict), .act (.make "a" "x ?" none none),
      .act (.stream "a" "s"), .act (.exit "c" .finished), .act (.next "s"), .act (.next "s")]
    workOf steps = workOf others ∧
      (sessionDeeds steps)[0]?.map (·.standing.settings) =
        (sessionDeeds others)[0]?.map (·.standing.settings) ∧
      sightsOf 0 [] (sessionDeeds steps) = sightsOf 0 [] (sessionDeeds others) := by
  intro strict steps others
  have hcaptured : (sessionDeeds steps)[0]?.map (·.standing.settings) =
      (sessionDeeds others)[0]?.map (·.standing.settings) := rfl
  exact ⟨rfl, hcaptured, settings_captured steps others rfl 0 (.inr hcaptured)⟩

end TokenStream
