import TokenStream.Proofs.Deeds
import TokenStream.Proofs.ThreadIsolation

/-!
# Contexts restore what they found

A context remembers the settings that were active when it was entered.  Nothing that a thread does
later changes this memory, so the first exit brings these settings back whatever lies in between,
other settings, other contexts that are still open, or contexts that were closed in any order, and
whether or not an error passes through.  Once a context is closed it has no say any more.

If contexts are closed in the reverse order of their entering, the outermost one is closed last and
brings back what was active before it, which is why a run that keeps to this order leaves no trace.

## Main definitions

* `Session.after` — the state after a thread has acted.
* `Action.entered?` — the name under which an action enters a context.
* `Nesting`, `Nesting.step?` — the contexts that are open, the innermost first, and those that are
  closed again.
* `AreNested` — actions that close contexts in the reverse order of their entering, and change
  settings only inside of them.
* `Nesting.Holds` — the invariant of such a run.

## Main results

* `Session.find?_after` — what is kept of a context changes only when it is entered or closed.
* `Nesting.Holds.perform`, `Nesting.Holds.after` — an action preserves the invariant, and so does a
  run.
* `contexts_restore` — **the first exit of a context restores what it found, a repeated one does
  nothing, and a nested run leaves the settings as they were**.
-/

namespace TokenStream

/-- Putting under a name what is there already changes nothing. -/
theorem Registry.put_eq_self {α : Type} {registry : Registry α} {name : String} {thing : α}
    (h : registry.find? name = some thing) : registry.put name thing = registry := by
  obtain ⟨entries⟩ := registry
  simp only [find?, put, Registry.mk.injEq] at h ⊢
  induction entries with
  | nil => contradiction
  | cons entry rest ih =>
    obtain ⟨other, held⟩ := entry
    by_cases hname : other = name
    · subst hname
      rw [findIn?, if_pos rfl] at h
      cases h
      rw [putIn, if_pos rfl]
    · rw [findIn?, if_neg hname] at h
      rw [putIn, if_neg hname, ih h]

/-- The name under which an action enters a context.  A value that gives no settings enters none. -/
def Action.entered? : Action → Option String
  | .enter name value => if (Settings.ofValue value).isOk then some name else none
  | _ => none

theorem Action.entered?_enter {name : String} {value : Value}
    (h : (Settings.ofValue value).isOk = true) :
    (Action.enter name value).entered? = some name := if_pos h

/-- The actions that mention a context are those that enter it and those that close it. -/
theorem Action.eq_of_mem_names {action : Action} {name : String}
    (h : .context name ∈ action.names) :
    (∃ value, action = .enter name value) ∨ ∃ leaving, action = .exit name leaving := by
  cases action with
  | enter other value =>
    obtain rfl : name = other := by simpa [names] using h
    exact .inl ⟨value, rfl⟩
  | exit other leaving =>
    obtain rfl : name = other := by simpa [names] using h
    exact .inr ⟨leaving, rfl⟩
  | _ => simp [names] at h

namespace Session

variable {session last : Session} {action : Action} {actions : List Action} {name : String}
  {leaving : Leaving}

/-! ### The state after actions in a row -/

/-- The state after a thread has acted. -/
def after (session : Session) (actions : List Action) : Session :=
  (session.run (actions.map .act)).2

theorem after_cons (session : Session) (action : Action) (actions : List Action) :
    session.after (action :: actions) = (session.perform action).2.shown.after actions := rfl

theorem after_append (session : Session) (actions more : List Action) :
    session.after (actions ++ more) = (session.after actions).after more := by
  simp only [after, List.map_append, run_append]

theorem after_concat (session : Session) (actions : List Action) (action : Action) :
    session.after (actions ++ [action]) = ((session.after actions).perform action).2.shown :=
  session.after_append actions [action]

/-- Between two actions nothing waits to be reported. -/
theorem events_after (session : Session) (actions : List Action) (action : Action)
    (more : List Action) : (session.after (actions ++ action :: more)).events = [] := by
  rw [after_append, after_cons]
  exact run_events rfl _

/-! ### What is kept of a context -/

@[simp] theorem restore_contexts (session : Session) (context : Option Context) :
    (session.restore context).contexts = session.contexts := by
  unfold restore
  split <;> rfl

@[simp] theorem enter_contexts (session : Session) (name : String) (settings : Settings) :
    (session.enter name settings).contexts = session.contexts.put name ⟨session.active, true⟩ :=
  restore_contexts _ _

@[simp] theorem exit_contexts (session : Session) (name : String) (context : Context) :
    (session.exit name context).contexts =
      session.contexts.put name { context with isOpen := false } :=
  restore_contexts _ _

/-- Closing a context once more changes nothing. -/
theorem exit_of_closed {found : Settings} (h : session.contexts.find? name = some ⟨found, false⟩) :
    session.exit name ⟨found, false⟩ = session := by
  show ({ session with contexts := session.contexts.put name ⟨found, false⟩ } : Session) = session
  rw [Registry.put_eq_self h]

theorem perform_exit {context : Context} (h : session.contexts.find? name = some context) :
    (session.perform (.exit name leaving)).2 = session.exit name context := by
  simp only [perform, h]

theorem perform_enter {value : Value} (h : (Action.enter name value).entered? = some name) :
    ∃ settings, (session.perform (.enter name value)).2 = session.enter name settings := by
  cases hvalue : Settings.ofValue value with
  | error fault =>
    rw [Action.entered?, hvalue] at h
    contradiction
  | ok settings =>
    refine ⟨settings, ?_⟩
    simp only [perform, hvalue, withSettings]

theorem perform_enter_of_none {value : Value} (h : (Action.enter name value).entered? = none) :
    (session.perform (.enter name value)).2 = session := by
  cases hvalue : Settings.ofValue value with
  | error fault => simp only [perform, hvalue, withSettings]
  | ok settings =>
    rw [Action.entered?, hvalue] at h
    contradiction

theorem Change.find?_contexts (h : session.Change action last)
    (hnames : .context name ∉ action.names) :
    last.contexts.find? name = session.contexts.find? name := by
  have hne : ∀ {other : String}, .context other ∈ action.names → other ≠ name := by
    rintro other hother rfl
    exact hnames hother
  cases h with
  | unchanged => rfl
  | activate => rfl
  | enter _ mentioned => rw [enter_contexts, Registry.find?_put_of_ne _ _ (hne mentioned)]
  | exit _ mentioned => rw [exit_contexts, Registry.find?_put_of_ne _ _ (hne mentioned)]
  | addScanner => rfl
  | putStream => rfl
  | close => rfl
  | @read _ _ _ stream => cases horigin : stream.origin <;> rfl

/-- **What is kept of a context changes only when it is entered or closed.**  Closing it once more
changes nothing either. -/
theorem find?_perform (hentered : action.entered? ≠ some name)
    (hclosed : ∀ leaving, action = .exit name leaving →
      ∀ found, session.contexts.find? name ≠ some ⟨found, true⟩) :
    (session.perform action).2.contexts.find? name = session.contexts.find? name := by
  by_cases hnames : .context name ∈ action.names
  · rcases Action.eq_of_mem_names hnames with ⟨value, rfl⟩ | ⟨leaving, rfl⟩
    · have hnone : (Action.enter name value).entered? = none := by
        rw [Action.entered?] at hentered ⊢
        split at hentered
        · contradiction
        · next h => rw [if_neg h]
      rw [perform_enter_of_none hnone]
    · cases hfind : session.contexts.find? name with
      | none => rw [perform, hfind]; exact hfind
      | some context =>
        obtain ⟨found, _ | _⟩ := context
        · rw [perform_exit hfind, exit_of_closed hfind, hfind]
        · exact absurd hfind (hclosed leaving rfl found)
  · exact (session.change_perform action).find?_contexts hnames

/-- What is kept of a context does not change while it is neither entered nor, being open,
closed. -/
theorem find?_after (hentered : ∀ action ∈ actions, action.entered? ≠ some name)
    (hclosed : ∀ leaving, .exit name leaving ∈ actions →
      ∀ found, session.contexts.find? name ≠ some ⟨found, true⟩) :
    (session.after actions).contexts.find? name = session.contexts.find? name := by
  induction actions generalizing session with
  | nil => rfl
  | cons action rest ih =>
    rw [List.forall_mem_cons] at hentered
    have hstep : (session.perform action).2.shown.contexts.find? name =
        session.contexts.find? name :=
      find?_perform hentered.1 fun leaving haction =>
        hclosed leaving (by rw [haction]; exact List.mem_cons_self)
    rw [after_cons, ih hentered.2, hstep]
    intro leaving hmem
    rw [hstep]
    exact hclosed leaving (List.mem_cons_of_mem _ hmem)

/-! ### A context from its entering on -/

theorem find?_enter {value : Value} (h : (Action.enter name value).entered? = some name) :
    (session.perform (.enter name value)).2.contexts.find? name =
      some ⟨session.active, true⟩ := by
  obtain ⟨settings, hperform⟩ := session.perform_enter h
  rw [hperform, enter_contexts, Registry.find?_put_self]

theorem find?_exit {found : Settings} (h : session.contexts.find? name = some ⟨found, true⟩) :
    (session.perform (.exit name leaving)).2.contexts.find? name = some ⟨found, false⟩ := by
  rw [perform_exit h, exit_contexts, Registry.find?_put_self]

theorem active_exit {found : Settings} (h : session.contexts.find? name = some ⟨found, true⟩) :
    (session.perform (.exit name leaving)).2.active = found := by
  rw [perform_exit h]
  rfl

/-- **The first exit of a context makes the settings active that were so when it was entered**, in
whatever way the context is left. -/
theorem after_exit {value : Value} {between : List Action} (leaving : Leaving)
    (hvalue : (Action.enter name value).entered? = some name)
    (hentered : ∀ action ∈ between, action.entered? ≠ some name)
    (hexit : ∀ other, .exit name other ∉ between) :
    let exited := session.after (.enter name value :: (between ++ [.exit name leaving]))
    exited.active = session.active ∧
      exited.contexts.find? name = some ⟨session.active, false⟩ := by
  intro exited
  have hopen : ((session.perform (.enter name value)).2.shown.after between).contexts.find? name =
      some ⟨session.active, true⟩ := by
    rw [find?_after hentered fun other hmem => absurd hmem (hexit other)]
    exact find?_enter hvalue
  have hexited : exited = (((session.perform (.enter name value)).2.shown.after between).perform
      (.exit name leaving)).2.shown := after_concat _ _ _
  rw [hexited]
  exact ⟨active_exit hopen, find?_exit hopen⟩

/-- The exit of a closed context does nothing, in whatever way it is left. -/
theorem after_exit_again {found : Settings}
    (h : session.contexts.find? name = some ⟨found, false⟩) (hevents : session.events = []) :
    (session.perform (.exit name leaving)).2.shown = session := by
  rw [perform_exit h, exit_of_closed h]
  obtain ⟨active, scanners, streams, contexts, events⟩ := session
  cases hevents
  rfl

end Session

/-- A name that is entered once is not entered again. -/
theorem Action.not_entered_of_nodup {before more : List Action} {action : Action} {name : String}
    (h : ((before ++ action :: more).filterMap entered?).Nodup)
    (haction : action.entered? = some name) :
    ∀ other ∈ more, other.entered? ≠ some name := by
  intro other hother hname
  rw [List.filterMap_append, List.filterMap_cons_some haction] at h
  have hmem : name ∈ more.filterMap entered? := List.mem_filterMap.mpr ⟨other, hother, hname⟩
  exact (List.nodup_cons.mp (List.nodup_append.mp h).2.1).1 hmem

/-! ### Nested contexts -/

/-- The contexts of a run that are open, the innermost first, and those that are closed again. -/
structure Nesting where
  /-- The names of the open contexts, the innermost first. -/
  opened : List String
  /-- The names of the closed contexts. -/
  closed : List String
deriving DecidableEq, Repr, Inhabited

namespace Nesting

/-- Before the first action no context has been entered. -/
def start : Nesting := ⟨[], []⟩

/-- What an action makes of a nesting.  Only the innermost context may be closed, and closed ones
may be closed again; settings may be changed in contexts only. -/
def step? (nesting : Nesting) : Action → Option Nesting
  | .enter name value =>
    if (Settings.ofValue value).isOk then some { nesting with opened := name :: nesting.opened }
    else some nesting
  | .exit name _ =>
    if nesting.opened.head? = some name then some ⟨nesting.opened.tail, name :: nesting.closed⟩
    else if name ∈ nesting.closed then some nesting
    else none
  | .set _ | .reset => if nesting.opened = [] then none else some nesting
  | _ => some nesting

/-- A name of a context that has been entered. -/
def Knows (nesting : Nesting) (name : String) : Prop :=
  name ∈ nesting.opened ∨ name ∈ nesting.closed

/-- What a session in which some settings were active at first has to do with a nesting. -/
structure Holds (nesting : Nesting) (found : Settings) (session : Session) : Prop where
  /-- Outside of contexts these settings are active. -/
  outside : nesting.opened = [] → session.active = found
  /-- The outermost context has found them. -/
  outermost : ∀ name, nesting.opened.getLast? = some name →
    session.contexts.find? name = some ⟨found, true⟩
  /-- Open contexts are open. -/
  opened : ∀ name ∈ nesting.opened, ∃ found, session.contexts.find? name = some ⟨found, true⟩
  /-- Closed contexts are closed. -/
  closed : ∀ name ∈ nesting.closed, ∃ found, session.contexts.find? name = some ⟨found, false⟩
  /-- No context is open twice. -/
  distinct : nesting.opened.Nodup

variable {nesting next : Nesting} {found : Settings} {session last : Session} {action : Action}
  {actions : List Action}

/-- What changes neither contexts nor, outside of them, settings preserves the invariant. -/
theorem Holds.keep (h : nesting.Holds found session)
    (hactive : nesting.opened = [] → last.active = session.active)
    (hfind : ∀ name, last.contexts.find? name = session.contexts.find? name) :
    nesting.Holds found last where
  outside hopened := (hactive hopened).trans (h.outside hopened)
  outermost name hname := (hfind name).trans (h.outermost name hname)
  opened name hname := by
    rw [hfind]
    exact h.opened name hname
  closed name hname := by
    rw [hfind]
    exact h.closed name hname
  distinct := h.distinct

/-- An action that mentions no context preserves the invariant, if it leaves the settings as they
are outside of contexts. -/
theorem Holds.perform_of_names (h : nesting.Holds found session)
    (hnames : ∀ name, .context name ∉ action.names)
    (hactive : nesting.opened = [] → (session.perform action).2.active = session.active) :
    nesting.Holds found (session.perform action).2.shown :=
  h.keep hactive fun name => (session.change_perform action).find?_contexts (hnames name)

/-- The entering of a context with a new name. -/
theorem Holds.enter (h : nesting.Holds found session) {name : String} {value : Value}
    (hvalue : (Action.enter name value).entered? = some name) (hnew : ¬ nesting.Knows name) :
    Holds { nesting with opened := name :: nesting.opened } found
      (session.perform (.enter name value)).2.shown := by
  obtain ⟨hopened, hclosed⟩ := not_or.mp hnew
  have hself : (session.perform (.enter name value)).2.contexts.find? name =
      some ⟨session.active, true⟩ := Session.find?_enter hvalue
  have hothers : ∀ other, other ≠ name →
      (session.perform (.enter name value)).2.contexts.find? other =
        session.contexts.find? other := by
    intro other hother
    apply Session.find?_perform
    · rw [hvalue]
      exact fun hname => hother (Option.some.inj hname).symm
    · simp
  constructor
  case outside => simp
  case outermost =>
    intro last hlast
    cases houter : nesting.opened.getLast? with
    | none =>
      rw [List.getLast?_cons, houter] at hlast
      cases hlast
      rw [← h.outside (List.getLast?_eq_none_iff.mp houter)]
      exact hself
    | some outer =>
      rw [List.getLast?_cons, houter] at hlast
      cases hlast
      refine (hothers outer ?_).trans (h.outermost outer houter)
      rintro rfl
      exact hopened (List.mem_of_getLast? houter)
  case opened =>
    intro other hother
    rcases List.mem_cons.mp hother with rfl | hmem
    · exact ⟨_, hself⟩
    · have hfind := hothers other (by rintro rfl; exact hopened hmem)
      obtain ⟨before, hbefore⟩ := h.opened other hmem
      exact ⟨before, hfind.trans hbefore⟩
  case closed =>
    intro other hmem
    have hfind := hothers other (by rintro rfl; exact hclosed hmem)
    obtain ⟨before, hbefore⟩ := h.closed other hmem
    exact ⟨before, hfind.trans hbefore⟩
  case distinct => exact List.nodup_cons.mpr ⟨hopened, h.distinct⟩

/-- The exit of the innermost context. -/
theorem Holds.exit {innermost : String} {others closed : List String}
    (h : Holds ⟨innermost :: others, closed⟩ found session) (leaving : Leaving) :
    Holds ⟨others, innermost :: closed⟩ found
      (session.perform (.exit innermost leaving)).2.shown := by
  obtain ⟨hnew, hdistinct⟩ := List.nodup_cons.mp h.distinct
  obtain ⟨before, hself⟩ := h.opened innermost List.mem_cons_self
  have hothers : ∀ other, other ≠ innermost →
      (session.perform (.exit innermost leaving)).2.contexts.find? other =
        session.contexts.find? other := by
    intro other hother
    apply Session.find?_perform
    · simp [Action.entered?]
    · intro again hexit
      exact absurd (Action.exit.inj hexit).1.symm hother
  constructor
  case outside =>
    -- The innermost context was also the outermost one.
    rintro rfl
    exact Session.active_exit (h.outermost innermost rfl)
  case outermost =>
    intro outer houter
    refine (hothers outer ?_).trans (h.outermost outer ?_)
    · rintro rfl
      exact hnew (List.mem_of_getLast? houter)
    · show (innermost :: others).getLast? = some outer
      rw [List.getLast?_cons]
      simp only at houter
      rw [houter]
      rfl
  case opened =>
    intro other hmem
    obtain ⟨before, hbefore⟩ := h.opened other (List.mem_cons_of_mem _ hmem)
    exact ⟨before, (hothers other (by rintro rfl; exact hnew hmem)).trans hbefore⟩
  case closed =>
    intro other hother
    by_cases hname : other = innermost
    · rw [hname]
      exact ⟨before, Session.find?_exit hself⟩
    · obtain ⟨before, hbefore⟩ := h.closed other ((List.mem_cons.mp hother).resolve_left hname)
      exact ⟨before, (hothers other hname).trans hbefore⟩
  case distinct => exact hdistinct

/-- One more exit of a closed context. -/
theorem Holds.exit_closed (h : nesting.Holds found session) {name : String}
    (hclosed : name ∈ nesting.closed) (leaving : Leaving) :
    nesting.Holds found (session.perform (.exit name leaving)).2.shown := by
  obtain ⟨before, hbefore⟩ := h.closed name hclosed
  rw [Session.perform_exit hbefore, Session.exit_of_closed hbefore]
  exact h.keep (fun _ => rfl) fun _ => rfl

/-- **An action preserves the invariant.** -/
theorem Holds.perform (h : nesting.Holds found session) (hstep : nesting.step? action = some next)
    (hnew : ∀ name, action.entered? = some name → ¬ nesting.Knows name) :
    next.Holds found (session.perform action).2.shown := by
  cases action with
  | enter name value =>
    rw [step?] at hstep
    split at hstep
    · next hvalue =>
      cases hstep
      have hentered : (Action.enter name value).entered? = some name :=
        Action.entered?_enter hvalue
      exact h.enter hentered (hnew name hentered)
    · next hvalue =>
      cases hstep
      rw [Session.perform_enter_of_none (if_neg hvalue)]
      exact h.keep (fun _ => rfl) fun _ => rfl
  | exit name leaving =>
    rw [step?] at hstep
    split at hstep
    · next hhead =>
      obtain ⟨opened, closed⟩ := nesting
      obtain ⟨others, rfl⟩ := List.head?_eq_some_iff.mp hhead
      cases hstep
      exact h.exit leaving
    · obtain ⟨hclosed, hnext⟩ := Option.ite_none_right_eq_some.mp hstep
      cases hnext
      exact h.exit_closed hclosed leaving
  | set value =>
    obtain ⟨hopened, hnext⟩ := Option.ite_none_left_eq_some.mp hstep
    cases hnext
    exact h.perform_of_names (by simp [Action.names]) fun hnone => absurd hnone hopened
  | reset =>
    obtain ⟨hopened, hnext⟩ := Option.ite_none_left_eq_some.mp hstep
    cases hnext
    exact h.perform_of_names (by simp [Action.names]) fun hnone => absurd hnone hopened
  | get => cases hstep; exact h.perform_of_names (by simp [Action.names]) fun _ => rfl
  | _ =>
    -- Work with scanners and streams.
    cases hstep
    exact h.perform_of_names (by simp [Action.names]) fun _ => session.active_perform rfl

theorem knows_of_step? (hstep : nesting.step? action = some next) {name : String}
    (hname : next.Knows name) : nesting.Knows name ∨ action.entered? = some name := by
  cases action with
  | enter other value =>
    rw [step?] at hstep
    split at hstep
    · next hvalue =>
      cases hstep
      rcases hname with hopened | hclosed
      · rcases List.mem_cons.mp hopened with rfl | hopened
        · exact .inr (Action.entered?_enter hvalue)
        · exact .inl (.inl hopened)
      · exact .inl (.inr hclosed)
    · cases hstep
      exact .inl hname
  | exit other leaving =>
    rw [step?] at hstep
    split at hstep
    · next hhead =>
      cases hstep
      rcases hname with hopened | hclosed
      · exact .inl (.inl (List.mem_of_mem_tail hopened))
      · rcases List.mem_cons.mp hclosed with rfl | hclosed
        · exact .inl (.inl (List.mem_of_head? hhead))
        · exact .inl (.inr hclosed)
    · cases (Option.ite_none_right_eq_some.mp hstep).2
      exact .inl hname
  | set value | reset =>
    cases (Option.ite_none_left_eq_some.mp hstep).2
    exact .inl hname
  | _ =>
    cases hstep
    exact .inl hname

/-- **A run preserves the invariant**, if it enters each context once. -/
theorem Holds.after (h : nesting.Holds found session)
    (hsteps : actions.foldlM step? nesting = some next)
    (honce : (actions.filterMap Action.entered?).Nodup)
    (hnew : ∀ name ∈ actions.filterMap Action.entered?, ¬ nesting.Knows name) :
    next.Holds found (session.after actions) := by
  induction actions generalizing nesting session with
  | nil =>
    cases hsteps
    exact h
  | cons action rest ih =>
    rw [List.foldlM_cons] at hsteps
    obtain ⟨between, hstep, hrest⟩ := Option.bind_eq_some_iff.mp hsteps
    have hfirst : ∀ name, action.entered? = some name → ¬ nesting.Knows name := by
      intro name hname
      exact hnew name (List.mem_filterMap.mpr ⟨action, List.mem_cons_self, hname⟩)
    have hlater : ∀ name ∈ rest.filterMap Action.entered?, ¬ between.Knows name := by
      intro name hmem hknows
      rcases knows_of_step? hstep hknows with hbefore | hname
      · obtain ⟨other, hother, hname⟩ := List.mem_filterMap.mp hmem
        exact hnew name
          (List.mem_filterMap.mpr ⟨other, List.mem_cons_of_mem _ hother, hname⟩) hbefore
      · rw [List.filterMap_cons_some hname] at honce
        exact (List.nodup_cons.mp honce).1 hmem
    have hnodup : (rest.filterMap Action.entered?).Nodup :=
      honce.sublist ((List.sublist_cons_self action rest).filterMap _)
    rw [Session.after_cons]
    exact ih (h.perform hstep hfirst) hrest hnodup hlater

/-- The invariant holds before the first action, for the settings that are active then. -/
theorem holds_start (session : Session) : start.Holds session.active session where
  outside _ := rfl
  outermost := by simp [start]
  opened := by simp [start]
  closed := by simp [start]
  distinct := List.nodup_nil

end Nesting

/-- Actions that close all contexts that they enter, in the reverse order, and change settings only
inside of them. -/
def AreNested (actions : List Action) : Prop :=
  ∃ closed, actions.foldlM Nesting.step? Nesting.start = some ⟨[], closed⟩

/-- **Contexts restore what they found.**  A thread acts, in any session, and enters each context
once.  After the first exit of a context the settings are active that were so just before it was
entered, whatever lies in between and whether or not an error passes through, and one more exit of it, in
either way, changes nothing at all.  So if all contexts are closed in the reverse order of their
entering, and settings change only inside of them, then the settings at the end are those from the
start. -/
theorem contexts_restore (session : Session) (actions : List Action)
    (honce : (actions.filterMap Action.entered?).Nodup) :
    (∀ before name value between leaving more,
      actions = before ++ .enter name value :: (between ++ .exit name leaving :: more) →
      (Action.enter name value).entered? = some name →
      (∀ other, .exit name other ∉ between) →
      let exited := before ++ .enter name value :: (between ++ [.exit name leaving])
      (session.after exited).active = (session.after before).active ∧
        ∀ since again rest, more = since ++ .exit name again :: rest →
          session.after (exited ++ since ++ [.exit name again]) =
            session.after (exited ++ since)) ∧
      (AreNested actions → (session.after actions).active = session.active) := by
  refine ⟨?_, ?_⟩
  · rintro before name value between leaving more rfl hvalue hexit exited
    have hentered := Action.not_entered_of_nodup honce hvalue
    have hbetween : ∀ action ∈ between, action.entered? ≠ some name := fun action hmem =>
      hentered action (List.mem_append_left _ hmem)
    obtain ⟨hactive, hclosed⟩ := (session.after before).after_exit leaving hvalue hbetween hexit
    rw [← Session.after_append] at hactive hclosed
    refine ⟨hactive, ?_⟩
    rintro since again rest rfl
    have hsince : ∀ action ∈ since, action.entered? ≠ some name := fun action hmem =>
      hentered action (by simp [hmem])
    have hstill : (session.after (exited ++ since)).contexts.find? name =
        some ⟨(session.after before).active, false⟩ := by
      rw [Session.after_append, Session.find?_after hsince, hclosed]
      intro _ _ found hfind
      rw [hclosed] at hfind
      cases hfind
    rw [Session.after_concat, Session.after_exit_again hstill]
    rw [List.append_assoc]
    exact session.events_after before _ _
  · rintro ⟨closed, hsteps⟩
    have hnew : ∀ name ∈ actions.filterMap Action.entered?, ¬ Nesting.start.Knows name := by
      simp [Nesting.Knows, Nesting.start]
    exact ((Nesting.holds_start session).after hsteps honce hnew).outside rfl

/-- Two contexts that overlap, of which the outer one is closed first, by an error, and once more at
the end; and two nested ones, of which the inner one is closed twice, first by an error. -/
theorem contexts_restore_overlapping :
    let strict : Value := .object [("strict", .bool true)]
    let limited : Value := .object [("max_source_length", .int 3)]
    let overlapping : List Action := [.set limited, .enter "a" strict, .enter "b" limited, .reset,
      .exit "a" .raised, .set strict, .exit "b" .finished, .exit "a" .finished]
    let nested : List Action := [.enter "a" strict, .set limited, .enter "b" strict,
      .exit "b" .raised, .reset, .exit "b" .finished, .exit "a" .finished]
    (overlapping.filterMap Action.entered?).Nodup ∧ (nested.filterMap Action.entered?).Nodup ∧
      (Session.start.after (overlapping.take 5)).active =
        (Session.start.after (overlapping.take 1)).active ∧
      Session.start.after overlapping = Session.start.after (overlapping.take 7) ∧
      AreNested nested ∧ (Session.start.after nested).active = Settings.default := by
  intro strict limited overlapping nested
  have honce : (overlapping.filterMap Action.entered?).Nodup :=
    show ["a", "b"].Nodup by decide
  have honce' : (nested.filterMap Action.entered?).Nodup := show ["a", "b"].Nodup by decide
  have hexit : ∀ other, Action.exit "a" other ∉ [.enter "b" limited, .reset] := by simp
  have hnested : AreNested nested := ⟨["a", "b"], rfl⟩
  obtain ⟨hactive, hagain⟩ := (contexts_restore Session.start overlapping honce).1 [.set limited]
    "a" strict [.enter "b" limited, .reset] .raised
    [.set strict, .exit "b" .finished, .exit "a" .finished] rfl rfl hexit
  exact ⟨honce, honce', hactive, hagain [.set strict, .exit "b" .finished] .finished [] rfl,
    hnested, (contexts_restore Session.start nested honce').2 hnested⟩

end TokenStream
