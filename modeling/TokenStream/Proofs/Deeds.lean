import TokenStream.Proofs.Changes

/-!
# The work in a session

Some steps of a session are about settings; the others make scanners and streams and read them.
The latter are the work of the session, in whatever thread they are done: a row of deeds, each with
its answer and with what is shown after it.  Between two deeds settings may change, but scanners and
streams do not.

Which deed made the scanner that a stream reads can be told from the work alone, without a look at
settings or answers.

## Main definitions

* `workOf` — the work in steps in a row.
* `Deed`, `deedsOf` — work that is done, with what is shown for it, and all that is done in steps.
* `makers`, `streamMaker?` — which deeds made the scanners under a name, and the one that a stream
  reads.
* `Session.Does` — the deeds with which a session gets from one state to another.

## Main results

* `Session.does_run` — **a run of a session is a row of deeds**, with changes of settings between
  them.
-/

namespace TokenStream

/-! ### Deeds -/

/-- Whether an action makes a scanner with settings of its own. -/
def Action.namesSettings : Action → Bool
  | .make _ _ _ (some _) | .scan _ _ _ (some _) => true
  | _ => false

/-- The stream that an action pulls or ends. -/
def Action.subject? : Action → Option String
  | .next name | .drain name | .close name | .serialize name _ => some name
  | _ => none

mutual

/-- The work in a step. -/
def Step.work : Step → List Action
  | .act action => if action.isWork then [action] else []
  | .thread steps => workOf steps

/-- The work in steps in a row. -/
def workOf : List Step → List Action
  | [] => []
  | step :: steps => step.work ++ workOf steps

end

/-- Work that is done. -/
structure Deed where
  /-- What is done. -/
  action : Action
  /-- What it comes to. -/
  answer : Answer
  /-- What is shown of the state after it. -/
  standing : Standing
deriving Inhabited

mutual

/-- The deeds in a step, from what is shown for it. -/
def Step.deeds : Step → Report → List Deed
  | .act action, .act answer standing =>
    if action.isWork then [⟨action, answer, standing⟩] else []
  | .thread steps, .thread reports _ => deedsOf steps reports
  | _, _ => []

/-- The deeds in steps in a row, from what is shown for them. -/
def deedsOf : List Step → List Report → List Deed
  | step :: steps, report :: reports => step.deeds report ++ deedsOf steps reports
  | _, _ => []

end

/-! ### Who made what

Deeds are numbered from zero, and the work that has been done is listed with the last first. -/

/-- Whether a scanner can be made with what is given for its settings. -/
def areAccepted : Option Value → Bool
  | none => true
  | some value => (Settings.ofValue value).isOk

/-- The numbers of the deeds that made the scanners under a name. -/
def makers (name : String) : List Action → List Nat
  | [] => []
  | .make other _ _ settings :: past =>
    if other = name ∧ areAccepted settings then makers name past ++ [past.length]
    else makers name past
  | _ :: past => makers name past

/-- The number of the deed that made the scanner that a stream reads.  A stream of a scanner that
does not exist is not made, and leaves the one under its name as it is. -/
def streamMaker? (name : String) : List Action → Option Nat
  | [] => none
  | .scan other _ _ settings :: past =>
    if other = name ∧ areAccepted settings then some past.length else streamMaker? name past
  | .stream made other :: past =>
    if other = name then (makers made past).getLast?.or (streamMaker? name past)
    else streamMaker? name past
  | _ :: past => streamMaker? name past

namespace Session

/-! ### Runs as rows of deeds -/

/-- Two states with the same scanners and streams. -/
structure SameWork (session other : Session) : Prop where
  /-- The scanners are the same. -/
  scanners : other.scanners = session.scanners
  /-- The streams are the same. -/
  streams : other.streams = session.streams

/-- The deeds with which a session gets from one state to another. -/
inductive Does : Session → List Deed → Session → Prop
  /-- Without deeds scanners and streams stay the same. -/
  | rest {session last : Session} (same : session.SameWork last) : Does session [] last
  /-- A deed, after scanners and streams have stayed the same, and what is done later. -/
  | deed {session between last : Session} {action : Action} {deeds : List Deed}
      (same : session.SameWork between) (work : action.isWork = true)
      (later : Does (between.perform action).2 deeds last) :
      Does session
        (⟨action, (between.perform action).1, (between.perform action).2.standing⟩ :: deeds) last

theorem SameWork.trans {session between last : Session} (h : session.SameWork between)
    (h' : between.SameWork last) : session.SameWork last :=
  ⟨h'.scanners.trans h.scanners, h'.streams.trans h.streams⟩

theorem Does.of_sameWork {session other last : Session} {deeds : List Deed}
    (h : other.Does deeds last) (hsame : session.SameWork other) : session.Does deeds last := by
  cases h with
  | rest same => exact .rest (hsame.trans same)
  | deed same work later => exact .deed (hsame.trans same) work later

theorem Does.append {session between last : Session} {deeds more : List Deed}
    (h : session.Does deeds between) (hmore : between.Does more last) :
    session.Does (deeds ++ more) last := by
  induction h with
  | rest same => exact hmore.of_sameWork same
  | deed same work _ ih => exact .deed same work (ih hmore)

theorem SameWork.restore {session other : Session} (h : session.SameWork other)
    (context : Option Context) : session.SameWork (other.restore context) := by
  unfold Session.restore
  split
  · exact ⟨h.scanners, h.streams⟩
  · exact h

/-- An action about settings leaves scanners and streams as they are. -/
theorem sameWork_perform (session : Session) {action : Action} (h : action.isWork = false) :
    session.SameWork (session.perform action).2 := by
  have hchange := session.change_perform action
  generalize (session.perform action).2 = after at hchange
  cases hchange with
  | unchanged => exact ⟨rfl, rfl⟩
  | activate => exact ⟨rfl, rfl⟩
  | enter =>
    simp only [enter]
    apply SameWork.restore
    exact ⟨rfl, rfl⟩
  | exit =>
    simp only [exit]
    apply SameWork.restore
    exact ⟨rfl, rfl⟩
  | addScanner kind | putStream kind | close kind | read kind =>
    rw [h] at kind
    contradiction

/-- Work leaves the active settings as they are. -/
theorem active_perform (session : Session) {action : Action} (h : action.isWork = true) :
    (session.perform action).2.active = session.active := by
  have hchange := session.change_perform action
  generalize (session.perform action).2 = after at hchange
  cases hchange with
  | unchanged => rfl
  -- The other sort of action changes settings.
  | activate kind | enter kind | exit kind =>
    rw [h] at kind
    contradiction
  | addScanner => rfl
  | putStream => rfl
  | close => rfl
  | @read _ _ _ stream => cases horigin : stream.origin <;> rfl

mutual

theorem does_runStep (session : Session) :
    (step : Step) → session.Does (step.deeds (session.runStep step).1) (session.runStep step).2
  | .act action => by
    have hshown : (session.perform action).2.SameWork (session.perform action).2.shown :=
      ⟨rfl, rfl⟩
    cases hwork : action.isWork with
    | true =>
      simp only [Step.deeds, runStep, hwork, if_true]
      exact .deed ⟨rfl, rfl⟩ hwork (.rest hshown)
    | false =>
      simp only [Step.deeds, runStep, hwork, Bool.false_eq_true, if_false]
      exact .rest ((session.sameWork_perform hwork).trans hshown)
  | .thread steps => by
    have hinside : session.SameWork session.inThread := ⟨rfl, rfl⟩
    have hback : (session.inThread.run steps).2.SameWork (session.runStep (.thread steps)).2 :=
      ⟨rfl, rfl⟩
    have hrun := ((does_run session.inThread steps).append (.rest hback)).of_sameWork hinside
    rwa [List.append_nil] at hrun

/-- **A run of a session is a row of deeds.** -/
theorem does_run (session : Session) :
    (steps : List Step) → session.Does (deedsOf steps (session.run steps).1) (session.run steps).2
  | [] => .rest ⟨rfl, rfl⟩
  | step :: steps => (does_runStep session step).append (does_run _ steps)

end

mutual

theorem work_runStep (session : Session) :
    (step : Step) → (step.deeds (session.runStep step).1).map Deed.action = step.work
  | .act action => by
    simp only [runStep, Step.deeds, Step.work]
    split <;> rfl
  | .thread steps => work_run session.inThread steps

/-- The deeds of a run are the work in its steps. -/
theorem work_run (session : Session) :
    (steps : List Step) → (deedsOf steps (session.run steps).1).map Deed.action = workOf steps
  | [] => rfl
  | step :: steps => by
    simp only [run, deedsOf, workOf, List.map_append]
    rw [work_runStep session step, work_run _ steps]

end

end Session

end TokenStream
