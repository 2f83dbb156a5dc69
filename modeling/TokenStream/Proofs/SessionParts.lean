import TokenStream.Proofs.Changes

/-!
# Parts of a session

What is done in a session concerns the contexts, scanners and streams whose names it mentions.  So a
session can be taken apart by names: a step that keeps to the names of one part does there what it
does in the whole session, and leaves the other part as it is.  This needs one condition, that no
stream of one part reads a scanner of the other.

## Main definitions

* `Session.part`, `partOf` — the part of a session with some of the names, and of what is shown.
* `Session.Splits` — no stream of one part reads a scanner of the other.
* `Session.SameHoldings` — two states that differ in settings and reports only.

## Main results

* `Session.run_part` — **steps that keep to the names of a part do there what they do in the whole
  session**.
* `Session.sameHoldings_run` — **steps that keep to other names leave a part as it is**.
-/

namespace TokenStream

/-! ### Parts of registries -/

namespace Registry

variable {α : Type} {sort : String → Name} {keep : Name → Bool} {name : String}

/-- What a registry for one sort of names keeps under some of them. -/
def part (sort : String → Name) (keep : Name → Bool) (registry : Registry α) : Registry α :=
  ⟨registry.entries.filter fun entry => keep (sort entry.1)⟩

theorem find?_part (registry : Registry α) (h : keep (sort name) = true) :
    (registry.part sort keep).find? name = registry.find? name := by
  obtain ⟨entries⟩ := registry
  simp only [part, find?]
  induction entries with
  | nil => rfl
  | cons entry rest ih =>
    obtain ⟨other, held⟩ := entry
    rw [List.filter_cons]
    split
    · rw [findIn?, findIn?, ih]
    · next hother =>
      have hname : other ≠ name := by
        rintro rfl
        exact hother h
      rw [findIn?, if_neg hname, ih]

/-- Putting something under a name of a part is putting it into the part. -/
theorem part_put (registry : Registry α) (thing : α) (h : keep (sort name) = true) :
    (registry.put name thing).part sort keep = (registry.part sort keep).put name thing := by
  obtain ⟨entries⟩ := registry
  simp only [part, put, Registry.mk.injEq]
  induction entries with
  | nil => simp only [putIn, List.filter_cons, h, if_true, List.filter_nil]
  | cons entry rest ih =>
    obtain ⟨other, held⟩ := entry
    by_cases hname : other = name
    · subst hname
      simp only [putIn, if_true, List.filter_cons, h]
    · rw [putIn, if_neg hname, List.filter_cons, List.filter_cons, ih]
      split
      · rw [putIn, if_neg hname]
      · rfl

/-- Putting something under another name leaves a part as it is. -/
theorem part_put_of_not (registry : Registry α) (thing : α) (h : keep (sort name) = false) :
    (registry.put name thing).part sort keep = registry.part sort keep := by
  obtain ⟨entries⟩ := registry
  simp only [part, put, Registry.mk.injEq]
  induction entries with
  | nil => simp only [putIn, List.filter_cons, h, Bool.false_eq_true, if_false]
  | cons entry rest ih =>
    obtain ⟨other, held⟩ := entry
    by_cases hname : other = name
    · subst hname
      simp only [putIn, if_true, List.filter_cons, h, Bool.false_eq_true, if_false]
    · rw [putIn, if_neg hname, List.filter_cons, List.filter_cons, ih]

end Registry

namespace Session

/-! ### Parts of a session -/

/-- The part of a session with some of the names. -/
def part (keep : Name → Bool) (session : Session) : Session :=
  { session with
    scanners := session.scanners.part .scanner keep
    streams := session.streams.part .stream keep
    contexts := session.contexts.part .context keep }

/-- No stream of one part reads a scanner of the other. -/
def Splits (session : Session) (keep : Name → Bool) : Prop :=
  ∀ name made number phase, session.streams.find? name = some ⟨.named made number, phase⟩ →
    keep (.stream name) = keep (.scanner made)

/-- Two states that differ in the active settings and in reports only. -/
structure SameHoldings (session other : Session) : Prop where
  /-- The scanners are the same. -/
  scanners : other.scanners = session.scanners
  /-- The streams are the same. -/
  streams : other.streams = session.streams
  /-- The contexts are the same. -/
  contexts : other.contexts = session.contexts

theorem SameHoldings.refl (session : Session) : session.SameHoldings session := ⟨rfl, rfl, rfl⟩

theorem SameHoldings.trans {session between last : Session} (h : session.SameHoldings between)
    (h' : between.SameHoldings last) : session.SameHoldings last :=
  ⟨h'.scanners.trans h.scanners, h'.streams.trans h.streams, h'.contexts.trans h.contexts⟩

theorem SameHoldings.restore {session other : Session} (h : session.SameHoldings other)
    (context : Option Context) : session.SameHoldings (other.restore context) := by
  unfold Session.restore
  split
  · exact ⟨h.scanners, h.streams, h.contexts⟩
  · exact h

variable {session : Session} {keep : Name → Bool} {name : String}

@[simp] theorem part_active : (session.part keep).active = session.active := rfl

theorem part_restore (context : Option Context) :
    (session.restore context).part keep = (session.part keep).restore context := by
  unfold restore
  split <;> rfl

theorem madeUnder_part (h : keep (.scanner name) = true) :
    (session.part keep).madeUnder name = session.madeUnder name := by
  simp only [madeUnder, part, Registry.find?_part _ h]

/-- A stream of a part is found there with the scanner that it reads. -/
theorem stream?_part (hsplits : session.Splits keep) (h : keep (.stream name) = true) :
    (session.part keep).stream? name = session.stream? name := by
  have hfind : (session.part keep).streams.find? name = session.streams.find? name :=
    Registry.find?_part _ h
  unfold stream?
  rw [hfind]
  cases hstream : session.streams.find? name with
  | none => rfl
  | some stream =>
    obtain ⟨origin, phase⟩ := stream
    cases origin with
    | own scanner => rfl
    | named made number =>
      have hmade : keep (.scanner made) = true := by
        rw [← hsplits name made number phase hstream, h]
      have hunder : (session.part keep).madeUnder made = session.madeUnder made :=
        madeUnder_part hmade
      simp only [Option.bind_eq_bind, Option.bind_some, scannerOf?, hunder]

/-! ### Changes inside a part -/

theorem part_enter (settings : Settings) (h : keep (.context name) = true) :
    (session.enter name settings).part keep = (session.part keep).enter name settings := by
  simp only [enter, part_restore]
  simp only [part, activate, Registry.find?_part _ h, Registry.part_put _ _ h]

theorem part_exit (context : Context) (h : keep (.context name) = true) :
    (session.exit name context).part keep = (session.part keep).exit name context := by
  simp only [exit, part_restore]
  simp only [part, Registry.part_put _ _ h]

theorem part_addScanner (scanner : Scanner) (h : keep (.scanner name) = true) :
    (session.addScanner name scanner).part keep = (session.part keep).addScanner name scanner := by
  simp only [addScanner, madeUnder_part h]
  simp only [part, Registry.part_put _ _ h]

theorem part_putStream (stream : Stream) (h : keep (.stream name) = true) :
    (session.putStream name stream).part keep = (session.part keep).putStream name stream := by
  simp only [putStream, part, Registry.part_put _ _ h]

/-- Reading a stream of a part changes the part as it does alone. -/
theorem part_afterReading (h : keep (.stream name) = true) {origin : Origin} (phase : Phase)
    (scanner : Scanner) (events : List Event)
    (horigin : ∀ made number, origin = .named made number → keep (.scanner made) = true) :
    (session.afterReading name origin phase scanner events).part keep =
      (session.part keep).afterReading name origin phase scanner events := by
  cases origin with
  | own old =>
    simp only [afterReading, part_putStream _ h]
    rfl
  | named made number =>
    -- The scanner is kept under its name, which is a name of the part too.
    have hmade := horigin made number rfl
    have hunder : (session.part keep).madeUnder made = session.madeUnder made :=
      madeUnder_part hmade
    simp only [afterReading, putStream, madeUnder] at hunder ⊢
    rw [hunder]
    simp only [part, Registry.part_put _ _ h, Registry.part_put _ _ hmade]

/-! ### Streams stay in their part -/

/-- A state splits if its streams are those of a state that does. -/
theorem Splits.of_streams_eq {other : Session} (hsplits : session.Splits keep)
    (h : other.streams = session.streams) : other.Splits keep := by
  intro name made number phase hstream
  exact hsplits name made number phase (h ▸ hstream)

theorem Splits.putStream (hsplits : session.Splits keep) {stream : Stream}
    (h : ∀ made number, stream.origin = .named made number →
      keep (.stream name) = keep (.scanner made)) :
    (session.putStream name stream).Splits keep := by
  intro other made number phase hstream
  by_cases hname : name = other
  · subst hname
    rw [Session.putStream, Registry.find?_put_self] at hstream
    obtain rfl := Option.some.inj hstream
    exact h made number rfl
  · rw [Session.putStream, Registry.find?_put_of_ne _ _ hname] at hstream
    exact hsplits other made number phase hstream

/-- A stream that is there reads a scanner of its part. -/
theorem Splits.keep_eq (hsplits : session.Splits keep) {stream : Stream}
    (hstream : session.streams.find? name = some stream) {made : String} {number : Nat}
    (horigin : stream.origin = .named made number) :
    keep (.stream name) = keep (.scanner made) :=
  hsplits name made number stream.phase (by rw [hstream, ← horigin])

theorem restore_streams (session : Session) (context : Option Context) :
    (session.restore context).streams = session.streams := by
  unfold restore
  split <;> rfl

/-- An action that keeps to one part makes no stream of one part read a scanner of the other. -/
theorem Splits.change {action : Action} {after : Session} {inPart : Bool}
    (hsplits : session.Splits keep) (hnames : ∀ name ∈ action.names, keep name = inPart)
    (h : session.Change action after) : after.Splits keep := by
  cases h with
  | unchanged => exact hsplits
  | activate => exact hsplits
  | enter => exact hsplits.of_streams_eq (restore_streams _ _)
  | exit => exact hsplits.of_streams_eq (restore_streams _ _)
  | addScanner => exact hsplits
  | putStream _ hstream hreads =>
    refine hsplits.putStream fun made number horigin => ?_
    rw [hnames _ hstream, hnames _ (hreads made number horigin)]
  | close _ _ hfound => exact hsplits.putStream fun _ _ => hsplits.keep_eq hfound
  | @read name _ _ stream hfound =>
    cases horigin : stream.origin with
    | own old => exact hsplits.putStream (by simp)
    | named made number =>
      refine hsplits.putStream fun other number' hnamed => ?_
      obtain ⟨rfl, rfl⟩ := Origin.named.inj hnamed
      exact hsplits.keep_eq hfound horigin

/-- An action that keeps to other names leaves a part as it is. -/
theorem SameHoldings.change {action : Action} {after : Session} (hsplits : session.Splits keep)
    (hnames : ∀ name ∈ action.names, keep name = false) (h : session.Change action after) :
    (session.part keep).SameHoldings (after.part keep) := by
  cases h with
  | unchanged => exact .refl _
  | activate => exact ⟨rfl, rfl, rfl⟩
  | enter _ hcontext =>
    simp only [enter, part_restore]
    apply SameHoldings.restore
    exact ⟨rfl, rfl, Registry.part_put_of_not _ _ (hnames _ hcontext)⟩
  | exit _ hcontext =>
    simp only [exit, part_restore]
    apply SameHoldings.restore
    exact ⟨rfl, rfl, Registry.part_put_of_not _ _ (hnames _ hcontext)⟩
  | addScanner _ hscanner => exact ⟨Registry.part_put_of_not _ _ (hnames _ hscanner), rfl, rfl⟩
  | putStream _ hstream => exact ⟨rfl, Registry.part_put_of_not _ _ (hnames _ hstream), rfl⟩
  | close _ hstream => exact ⟨rfl, Registry.part_put_of_not _ _ (hnames _ hstream), rfl⟩
  | @read name _ hstream stream hfound =>
    have hout := hnames _ hstream
    cases horigin : stream.origin with
    | own old => exact ⟨rfl, Registry.part_put_of_not _ _ hout, rfl⟩
    | named made number =>
      have hmade : keep (.scanner made) = false := (hsplits.keep_eq hfound horigin).symm.trans hout
      exact ⟨Registry.part_put_of_not _ _ hmade, Registry.part_put_of_not _ _ hout, rfl⟩

/-! ### Actions inside a part -/

/-- What comes of an action, with a part of the state after it. -/
def partAfter (keep : Name → Bool) (result : Answer × Session) : Answer × Session :=
  (result.1, result.2.part keep)

theorem withSettings_part {action inPart : Settings → Session}
    (chosen : Except Settings.NotObject Settings)
    (h : ∀ settings, (action settings).part keep = inPart settings) :
    (session.part keep).withSettings chosen inPart =
      partAfter keep (session.withSettings chosen action) := by
  cases chosen with
  | error fault => rfl
  | ok settings => simp only [withSettings, partAfter, h]

theorem onStream_part {action inPart : Stream → Scanner → Answer × Session}
    (hsplits : session.Splits keep) (hname : keep (.stream name) = true)
    (h : ∀ stream scanner, session.streams.find? name = some stream →
      inPart stream scanner = partAfter keep (action stream scanner)) :
    (session.part keep).onStream name inPart = partAfter keep (session.onStream name action) := by
  unfold onStream
  rw [stream?_part hsplits hname]
  split
  case h_1 stream scanner hstream => exact h stream scanner (find?_of_stream? hstream)
  case h_2 => rfl

/-- Reading a stream of a part changes the part as it does alone. -/
theorem readBy_part (hsplits : session.Splits keep) (hname : keep (.stream name) = true)
    (read : Phase → Scanner → Reading) :
    (session.part keep).readBy name read = partAfter keep (session.readBy name read) := by
  refine onStream_part hsplits hname fun stream scanner hstream => ?_
  have horigin : ∀ made number, stream.origin = .named made number → keep (.scanner made) = true :=
    fun made number horigin => (hsplits.keep_eq hstream horigin).symm.trans hname
  simp only [partAfter, part_afterReading hname _ _ _ horigin]

/-- **An action that keeps to the names of a part does there what it does in the whole
session.** -/
theorem perform_part (hsplits : session.Splits keep) {action : Action}
    (hnames : ∀ name ∈ action.names, keep name = true) :
    (session.part keep).perform action = partAfter keep (session.perform action) := by
  cases action with
  | get => rfl
  | set value => exact withSettings_part _ fun settings => rfl
  | reset => rfl
  | enter name value =>
    exact withSettings_part _ fun settings =>
      part_enter settings (hnames _ (List.mem_singleton_self _))
  | exit name leaving =>
    have hname : keep (.context name) = true := hnames _ (List.mem_singleton_self _)
    have hfind : (session.part keep).contexts.find? name = session.contexts.find? name :=
      Registry.find?_part _ hname
    simp only [perform, hfind]
    split
    · simp only [partAfter, part_exit _ hname]
    · rfl
  | make name source sourceFile value =>
    exact withSettings_part _ fun settings =>
      part_addScanner _ (hnames _ (List.mem_singleton_self _))
  | source name =>
    have hname : keep (.scanner name) = true := hnames _ (List.mem_singleton_self _)
    simp only [perform, scanner?, madeUnder_part hname]
    split <;> rfl
  | stream made name =>
    have hmade : keep (.scanner made) = true := hnames _ List.mem_cons_self
    have hname : keep (.stream name) = true :=
      hnames _ (List.mem_cons_of_mem _ (List.mem_singleton_self _))
    simp only [perform, madeUnder_part hmade]
    split
    · rfl
    · simp only [partAfter, part_putStream _ hname]
  | scan name source sourceFile value =>
    exact withSettings_part _ fun settings =>
      part_putStream _ (hnames _ (List.mem_singleton_self _))
  | next name =>
    rw [perform_next, perform_next]
    exact readBy_part hsplits (hnames _ (List.mem_singleton_self _)) _
  | drain name =>
    rw [perform_drain, perform_drain]
    exact readBy_part hsplits (hnames _ (List.mem_singleton_self _)) _
  | close name =>
    have hname : keep (.stream name) = true := hnames _ (List.mem_singleton_self _)
    refine onStream_part hsplits hname fun stream scanner hstream => ?_
    simp only [partAfter, part_putStream _ hname]
  | serialize name indent =>
    rw [perform_serialize, perform_serialize]
    exact readBy_part hsplits (hnames _ (List.mem_singleton_self _)) _

end Session

/-! ### Parts of what is shown -/

/-- The part with some of the names of what is shown of a state. -/
def Standing.part (keep : Name → Bool) (standing : Standing) : Standing :=
  { standing with positions := standing.positions.filter fun shown => keep (.scanner shown.1) }

mutual

/-- The part with some of the names of what is shown for a step. -/
def Report.part (keep : Name → Bool) : Report → Report
  | .act answer standing => .act answer (standing.part keep)
  | .thread reports standing => .thread (partOf keep reports) (standing.part keep)

/-- The part with some of the names of what is shown for steps in a row. -/
def partOf (keep : Name → Bool) : List Report → List Report
  | [] => []
  | report :: reports => report.part keep :: partOf keep reports

end

theorem partOf_append (keep : Name → Bool) (reports more : List Report) :
    partOf keep (reports ++ more) = partOf keep reports ++ partOf keep more := by
  induction reports with
  | nil => rfl
  | cons report rest ih => simp only [List.cons_append, partOf, ih]

namespace Session

variable {session : Session} {keep : Name → Bool}

theorem positions_part : (session.part keep).positions =
    session.positions.filter fun shown => keep (.scanner shown.1) := by
  obtain ⟨active, ⟨entries⟩, streams, contexts, events⟩ := session
  simp only [positions, part, Registry.part]
  rw [List.filterMap_filter, List.filter_filterMap]
  congr 1
  funext entry
  cases entry.2.getLast? <;> simp [Option.filter]

theorem standing_part : (session.part keep).standing = session.standing.part keep := by
  simp only [standing, Standing.part, positions_part]
  rfl

/-! ### Steps inside a part -/

mutual

/-- A step that keeps to one part makes no stream of one part read a scanner of the other. -/
theorem Splits.runStep {session : Session} {inPart : Bool} (hsplits : session.Splits keep) :
    (step : Step) → (∀ name ∈ step.names, keep name = inPart) →
    (session.runStep step).2.Splits keep
  | .act action, hnames =>
    have hafter := Splits.change hsplits hnames (session.change_perform action)
    hafter
  | .thread steps, hnames =>
    have hinside : session.inThread.Splits keep := hsplits
    hinside.run steps hnames

/-- Steps that keep to one part make no stream of one part read a scanner of the other. -/
theorem Splits.run {session : Session} {inPart : Bool} (hsplits : session.Splits keep) :
    (steps : List Step) → (∀ name ∈ namesOf steps, keep name = inPart) →
    (session.run steps).2.Splits keep
  | [], _ => hsplits
  | step :: steps, hnames =>
    have hfirst := hsplits.runStep step fun name h => hnames name (List.mem_append_left _ h)
    hfirst.run steps fun name h => hnames name (List.mem_append_right _ h)

end

mutual

theorem runStep_part {session : Session} (hsplits : session.Splits keep) :
    (step : Step) → (∀ name ∈ step.names, keep name = true) →
    (session.part keep).runStep step =
      ((session.runStep step).1.part keep, (session.runStep step).2.part keep)
  | .act action, hnames => by
    rw [Session.runStep, perform_part hsplits hnames]
    simp only [partAfter, Session.runStep, Report.part, standing_part]
    rfl
  | .thread steps, hnames => by
    have hinside : session.inThread.Splits keep := hsplits
    have hthread : (session.part keep).inThread = session.inThread.part keep := rfl
    rw [Session.runStep, hthread, run_part hinside steps hnames]
    simp only [Session.runStep, Report.part, ← standing_part]
    rfl

/-- **Steps that keep to the names of a part do there what they do in the whole session.** -/
theorem run_part {session : Session} (hsplits : session.Splits keep) :
    (steps : List Step) → (∀ name ∈ namesOf steps, keep name = true) →
    (session.part keep).run steps =
      (partOf keep (session.run steps).1, (session.run steps).2.part keep)
  | [], _ => rfl
  | step :: steps, hnames => by
    have hstep : ∀ name ∈ step.names, keep name = true := fun name h =>
      hnames name (List.mem_append_left _ h)
    have hrest := run_part (hsplits.runStep step hstep) steps fun name h =>
      hnames name (List.mem_append_right _ h)
    rw [Session.run, runStep_part hsplits step hstep]
    simp only [hrest, Session.run, partOf]

end

mutual

theorem sameHoldings_runStep {session : Session} (hsplits : session.Splits keep) :
    (step : Step) → (∀ name ∈ step.names, keep name = false) →
    (session.part keep).SameHoldings ((session.runStep step).2.part keep)
  | .act action, hnames => by
    have hchange := SameHoldings.change hsplits hnames (session.change_perform action)
    exact ⟨hchange.scanners, hchange.streams, hchange.contexts⟩
  | .thread steps, hnames => by
    have hinside : session.inThread.Splits keep := hsplits
    have hrun := sameHoldings_run hinside steps hnames
    exact ⟨hrun.scanners, hrun.streams, hrun.contexts⟩

/-- **Steps that keep to other names leave a part as it is.** -/
theorem sameHoldings_run {session : Session} (hsplits : session.Splits keep) :
    (steps : List Step) → (∀ name ∈ namesOf steps, keep name = false) →
    (session.part keep).SameHoldings ((session.run steps).2.part keep)
  | [], _ => .refl _
  | step :: steps, hnames => by
    have hstep : ∀ name ∈ step.names, keep name = false := fun name h =>
      hnames name (List.mem_append_left _ h)
    have hrest := sameHoldings_run (hsplits.runStep step hstep) steps fun name h =>
      hnames name (List.mem_append_right _ h)
    exact (sameHoldings_runStep hsplits step hstep).trans hrest

end

end Session

end TokenStream
