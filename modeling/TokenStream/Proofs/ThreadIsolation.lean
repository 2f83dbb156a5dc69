import TokenStream.Proofs.SessionParts

/-!
# Threads are isolated

Threads share scanners, streams and contexts, but not the active settings: a thread starts with the
default ones, and what it makes of its own is not seen by the thread that started it.  So a thread
that keeps to names of its own can be taken out of a session without a trace, and does in it what it
does alone.

## Main definitions

* `Place` — a place among the steps of a session, inside of threads to any depth.
* `Place.fill` — the session with steps put in at a place.
* `Place.reportsAt`, `Place.elsewhere` — what is shown for the steps at a place, and for the others.

## Main results

* `thread_isolated` — **a thread starts with the default settings and leaves those of its creator as
  they are; if it keeps to names of its own, it changes nothing that is shown elsewhere, and nothing
  elsewhere changes what it shows**.
-/

namespace TokenStream

/-! ### Steps in a row -/

namespace Session

theorem run_append (session : Session) (steps more : List Step) :
    session.run (steps ++ more) =
      ((session.run steps).1 ++ ((session.run steps).2.run more).1,
        ((session.run steps).2.run more).2) := by
  induction steps generalizing session with
  | nil => rfl
  | cons step rest ih => simp only [List.cons_append, run, ih]

@[simp] theorem length_run (session : Session) (steps : List Step) :
    (session.run steps).1.length = steps.length := by
  induction steps generalizing session with
  | nil => rfl
  | cons step rest ih => simp only [run, List.length_cons, ih]

@[simp] theorem runStep_events (session : Session) (step : Step) :
    (session.runStep step).2.events = [] := by
  cases step <;> rfl

/-- Between two steps nothing waits to be reported. -/
theorem run_events {session : Session} (h : session.events = []) (steps : List Step) :
    (session.run steps).2.events = [] := by
  induction steps generalizing session with
  | nil => exact h
  | cons step rest ih => exact ih (session.runStep_events step)

/-- States that differ in settings and reports only are the same when these are. -/
theorem SameHoldings.eq {session other : Session} (h : session.SameHoldings other)
    (hactive : other.active = session.active) (hevents : other.events = session.events) :
    other = session := by
  obtain ⟨active, scanners, streams, contexts, events⟩ := session
  obtain ⟨active', scanners', streams', contexts', events'⟩ := other
  obtain ⟨hscanners, hstreams, hcontexts⟩ := h
  simp only at hactive hevents hscanners hstreams hcontexts
  rw [hactive, hscanners, hstreams, hcontexts, hevents]

end Session

/-! ### Places -/

/-- A place among the steps of a session. -/
inductive Place
  /-- Between steps of the first thread. -/
  | here (before after : List Step)
  /-- In another thread, which is started between steps of the first. -/
  | within (before : List Step) (place : Place) (after : List Step)

namespace Place

/-- The steps of a session, with some put in at a place. -/
def fill (inserted : List Step) : Place → List Step
  | here before after => before ++ inserted ++ after
  | within before place after => before ++ .thread (place.fill inserted) :: after

/-- The state in which the steps at a place begin. -/
def reached (session : Session) : Place → Session
  | here before _ => (session.run before).2
  | within before place _ => place.reached (session.run before).2.inThread

/-- What is shown for a number of steps at a place. -/
def reportsAt (count : Nat) : Place → List Report → List Report
  | here before _, reports => (reports.drop before.length).take count
  | within before place _, reports =>
    match reports.drop before.length with
    | .thread inside _ :: _ => place.reportsAt count inside
    | _ => []

/-- What is shown for all steps but the one at a place. -/
def elsewhere : Place → List Report → List Report
  | here before _, reports => reports.take before.length ++ reports.drop (before.length + 1)
  | within before place _, reports =>
    match reports.drop before.length with
    | .thread inside standing :: more =>
      reports.take before.length ++ .thread (place.elsewhere inside) standing :: more
    | _ => reports

theorem elsewhere_here {before : List Step} (after : List Step) {reports : List Report}
    (h : reports.length = before.length) (report : Report) (more : List Report) :
    (here before after).elsewhere (reports ++ report :: more) = reports ++ more := by
  rw [elsewhere, List.take_left' h, ← List.drop_drop, List.drop_left' h, List.drop_one,
    List.tail_cons]

theorem elsewhere_within {before : List Step} (place : Place) (after : List Step)
    {reports : List Report} (h : reports.length = before.length) (inside : List Report)
    (standing : Standing) (more : List Report) :
    (within before place after).elsewhere (reports ++ .thread inside standing :: more) =
      reports ++ .thread (place.elsewhere inside) standing :: more := by
  rw [elsewhere, List.drop_left' h, List.take_left' h]

/-- The steps at a place do what they do in the state that is reached there. -/
theorem reportsAt_run (session : Session) (inserted : List Step) (place : Place) :
    place.reportsAt inserted.length (session.run (place.fill inserted)).1 =
      ((place.reached session).run inserted).1 := by
  induction place generalizing session with
  | here before after =>
    simp only [fill, reportsAt, reached, Session.run_append, List.append_assoc]
    rw [List.drop_left' (session.length_run before),
      List.take_left' (Session.length_run _ inserted)]
  | within before place after ih =>
    simp only [fill, reportsAt, reached, Session.run_append, Session.run, Session.runStep]
    rw [List.drop_left' (session.length_run before)]
    exact ih _

variable {session : Session} {keep : Name → Bool}

/-! ### A thread with names of its own -/

/-- Steps with other names leave a part as it is until a place is reached. -/
theorem reached_part (hsplits : session.Splits keep) (hevents : session.events = [])
    (place : Place) (hnames : ∀ name ∈ namesOf (place.fill []), keep name = false) :
    (place.reached session).Splits keep ∧ (place.reached session).events = [] ∧
      (session.part keep).SameHoldings ((place.reached session).part keep) := by
  induction place generalizing session with
  | here before after =>
    simp only [fill, List.append_nil, namesOf_append, List.mem_append] at hnames
    have hbefore : ∀ name ∈ namesOf before, keep name = false := fun name h =>
      hnames name (.inl h)
    exact ⟨hsplits.run before hbefore, Session.run_events hevents before,
      Session.sameHoldings_run hsplits before hbefore⟩
  | within before place after ih =>
    simp only [fill, namesOf_append, namesOf, Step.names, List.mem_append] at hnames
    have hbefore : ∀ name ∈ namesOf before, keep name = false := fun name h =>
      hnames name (.inl h)
    have hinside : (session.run before).2.inThread.Splits keep := hsplits.run before hbefore
    obtain ⟨hafter, hnone, hsame⟩ := ih hinside (Session.run_events hevents before) fun name h =>
      hnames name (.inr (.inl h))
    have hrun := Session.sameHoldings_run hsplits before hbefore
    exact ⟨hafter, hnone, hsame.scanners.trans hrun.scanners, hsame.streams.trans hrun.streams,
      hsame.contexts.trans hrun.contexts⟩

/-- A thread that keeps to other names leaves a part of the state as it is. -/
theorem runStep_thread_part {steps : List Step} (hsplits : session.Splits keep)
    (hevents : session.events = []) (hnames : ∀ name ∈ namesOf steps, keep name = false) :
    (session.runStep (.thread steps)).2.part keep = session.part keep := by
  have hsame := Session.sameHoldings_runStep hsplits (.thread steps) hnames
  exact hsame.eq rfl ((session.runStep_events _).trans hevents.symm)

/-- A thread with names of its own leaves no stream of one part that reads a scanner of the
other. -/
theorem splits_fill (hsplits : session.Splits keep) {steps : List Step}
    (hsteps : ∀ name ∈ namesOf steps, keep name = false) (place : Place)
    (hnames : ∀ name ∈ namesOf (place.fill []), keep name = true) :
    (session.run (place.fill [.thread steps])).2.Splits keep := by
  induction place generalizing session with
  | here before after =>
    simp only [fill, List.append_nil, namesOf_append, List.mem_append] at hnames
    have hreached := hsplits.run before fun name h => hnames name (.inl h)
    have hthread := hreached.runStep (.thread steps) hsteps
    simp only [fill, List.append_assoc, Session.run_append]
    exact hthread.run after fun name h => hnames name (.inr h)
  | within before place after ih =>
    simp only [fill, namesOf_append, namesOf, Step.names, List.mem_append] at hnames
    have hreached : (session.run before).2.inThread.Splits keep :=
      hsplits.run before fun name h => hnames name (.inl h)
    have hinside : ((session.run before).2.runStep
        (.thread (place.fill [.thread steps]))).2.Splits keep :=
      ih hreached fun name h => hnames name (.inr (.inl h))
    simp only [fill, Session.run_append]
    exact hinside.run after fun name h => hnames name (.inr (.inr h))

/-- Taking a thread with other names out of a session changes nothing in a part. -/
theorem elsewhere_part (hsplits : session.Splits keep) (hevents : session.events = [])
    {steps : List Step} (hsteps : ∀ name ∈ namesOf steps, keep name = false) (place : Place)
    (hnames : ∀ name ∈ namesOf (place.fill []), keep name = true) :
    (session.part keep).run (place.fill []) =
      (partOf keep (place.elsewhere (session.run (place.fill [.thread steps])).1),
        (session.run (place.fill [.thread steps])).2.part keep) := by
  induction place generalizing session with
  | here before after =>
    simp only [fill, List.append_nil, namesOf_append, List.mem_append] at hnames
    have hbefore : ∀ name ∈ namesOf before, keep name = true := fun name h =>
      hnames name (.inl h)
    have hreached := hsplits.run before hbefore
    -- The thread leaves the part as it is: the steps after it go on where those before it ended.
    have hthread := runStep_thread_part hreached (Session.run_events hevents before) hsteps
    have hrest := Session.run_part (hreached.runStep (.thread steps) hsteps) after fun name h =>
      hnames name (.inr h)
    rw [hthread] at hrest
    simp only [fill, List.append_nil, List.append_assoc, Session.run_append, Session.run,
      List.singleton_append, Session.run_part hsplits before hbefore, hrest]
    rw [elsewhere_here after (session.length_run before), partOf_append]
  | within before place after ih =>
    simp only [fill, namesOf_append, namesOf, Step.names, List.mem_append] at hnames
    have hbefore : ∀ name ∈ namesOf before, keep name = true := fun name h =>
      hnames name (.inl h)
    have hplace : ∀ name ∈ namesOf (place.fill []), keep name = true := fun name h =>
      hnames name (.inr (.inl h))
    have hreached : (session.run before).2.inThread.Splits keep := hsplits.run before hbefore
    have hinside := ih hreached (Session.run_events hevents before) hplace
    have hsplits' := splits_fill hreached hsteps place hplace
    have hthread : ((session.run before).2.part keep).inThread =
        (session.run before).2.inThread.part keep := rfl
    simp only [fill, Session.run_append, Session.run, Session.runStep,
      Session.run_part hsplits before hbefore, hthread, hinside]
    rw [elsewhere_within place after (session.length_run before)]
    generalize (session.run before).2.inThread.run (place.fill [.thread steps]) = ran at *
    -- The thread that contains the place hands its state back to the one that started it.
    have hback : (ran.2.activate (session.run before).2.active).shown.Splits keep := hsplits'
    have hrest := Session.run_part hback after fun name h => hnames name (.inr (.inr h))
    have hactivate : ((ran.2.part keep).activate (session.run before).2.active) =
        (ran.2.activate (session.run before).2.active).part keep := rfl
    have hshown : ((ran.2.activate (session.run before).2.active).part keep).shown =
        (ran.2.activate (session.run before).2.active).shown.part keep := rfl
    simp only [Session.part_active, hactivate, Session.standing_part, hshown, hrest, partOf_append,
      partOf, Report.part]

end Place

/-! ### Isolation -/

/-- Before the first step there is nothing to share. -/
theorem Session.splits_start (keep : Name → Bool) : Session.start.Splits keep := by
  intro name made number phase hstream
  contradiction

/-- A thread with names of its own begins with what there is before the first step. -/
theorem Place.reached_inThread_part {keep : Name → Bool} (place : Place)
    (hnames : ∀ name ∈ namesOf (place.fill []), keep name = false) :
    (place.reached Session.start).Splits keep ∧
      (place.reached Session.start).inThread.part keep = Session.start := by
  obtain ⟨hsplits, hevents, hsame⟩ :=
    Place.reached_part (Session.splits_start keep) rfl place hnames
  have hinside : (Session.start.part keep).SameHoldings
      ((place.reached Session.start).inThread.part keep) :=
    ⟨hsame.scanners, hsame.streams, hsame.contexts⟩
  exact ⟨hsplits, hinside.eq rfl hevents⟩

/-- **Threads are isolated.**  Wherever a thread is started, it starts with the default settings,
and its creator has the same settings after it as before.  If no name that it mentions is mentioned
elsewhere in the session, then without it all other steps show what they show with it, save for the
positions of its scanners; and its own steps show, of its own scanners, what they show in a session
of their own. -/
theorem thread_isolated (place : Place) (steps : List Step) :
    (∃ first reports last,
      place.reportsAt 1 (runSession (place.fill [.thread (.act .get :: steps)])) =
          [.thread (.act .done first :: reports) last] ∧
        first.settings = Settings.default) ∧
      (∃ before reports last after,
        place.reportsAt 3 (runSession (place.fill [.act .get, .thread steps, .act .get])) =
            [.act .done before, .thread reports last, .act .done after] ∧
          last.settings = before.settings ∧ after.settings = before.settings) ∧
      ((∀ name ∈ namesOf steps, name ∉ namesOf (place.fill [])) →
        partOf (fun name => name ∉ namesOf steps)
            (place.elsewhere (runSession (place.fill [.thread steps]))) =
          runSession (place.fill []) ∧
        ∃ reports last,
          place.reportsAt 1 (runSession (place.fill [.thread steps])) = [.thread reports last] ∧
            partOf (fun name => name ∈ namesOf steps) reports = runSession steps) := by
  refine ⟨?_, ?_, fun hapart => ⟨?_, ?_⟩⟩
  · have hreports := place.reportsAt_run Session.start [.thread (.act .get :: steps)]
    exact ⟨_, _, _, hreports, rfl⟩
  · have hreports := place.reportsAt_run Session.start [.act .get, .thread steps, .act .get]
    exact ⟨_, _, _, _, hreports, rfl, rfl⟩
  · -- The part with the other names passes over the thread.
    have hsteps : ∀ name ∈ namesOf steps, decide (name ∉ namesOf steps) = false := by simp
    have hothers : ∀ name ∈ namesOf (place.fill []), decide (name ∉ namesOf steps) = true := by
      simpa using fun name h hmem => hapart name hmem h
    have helsewhere :=
      Place.elsewhere_part (Session.splits_start _) rfl hsteps place hothers
    exact congrArg Prod.fst helsewhere.symm
  · -- The part with its own names is empty where the thread starts, as in a session of its own.
    have hsteps : ∀ name ∈ namesOf steps, decide (name ∈ namesOf steps) = true := by simp
    have hothers : ∀ name ∈ namesOf (place.fill []), decide (name ∈ namesOf steps) = false := by
      simpa using fun name h hmem => hapart name hmem h
    have hreports := place.reportsAt_run Session.start [.thread steps]
    refine ⟨_, _, hreports, ?_⟩
    obtain ⟨hsplits, hstart⟩ := place.reached_inThread_part hothers
    have hinside : (place.reached Session.start).inThread.Splits
        fun name => decide (name ∈ namesOf steps) := hsplits
    have hrun := Session.run_part hinside steps hsteps
    rw [hstart] at hrun
    exact congrArg Prod.fst hrun.symm

/-- A thread inside a thread, with a context and a scanner of its own, in a session where another
scanner is strict. -/
theorem thread_isolated_inside_thread :
    let place : Place := .within
      [.act (.set (.object [("strict", .bool true)])), .act (.make "a" "x ?" none none)]
      (.here [.act (.stream "a" "s"), .act (.next "s")] [.act (.next "s")])
      [.act (.drain "s")]
    let steps : List Step := [.act (.enter "c" (.object [("strict", .int 1)])),
      .act (.make "b" "?" none none), .act (.stream "b" "t"), .act (.next "t"),
      .act (.exit "c" .finished)]
    (∀ name ∈ namesOf steps, name ∉ namesOf (place.fill [])) ∧
      partOf (fun name => name ∉ namesOf steps)
          (place.elsewhere (runSession (place.fill [.thread steps]))) =
        runSession (place.fill []) := by
  intro place steps
  have hapart : ∀ name ∈ namesOf steps, name ∉ namesOf (place.fill []) := by decide
  exact ⟨hapart, ((thread_isolated place steps).2.2 hapart).1⟩

end TokenStream
