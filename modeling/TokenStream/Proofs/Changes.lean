import TokenStream.Proofs.Sharing

/-!
# What an action changes

The actions of a session fall into two sorts.  Some are about settings: they change what is active
in the running thread, and contexts.  The others are the work that is done with scanners and
streams.  Whatever an action does, it changes only what is kept under the names that it mentions; a
stream that it reads may stand for a scanner that it does not mention.

## Main definitions

* `Name`, `namesOf` — names of the three sorts, and those that steps mention.
* `Action.isWork` — whether an action is about scanners and streams.
* `Session.readBy` — what the actions that read a stream have in common.
* `Session.Change` — what an action can make of a state.

## Main results

* `Session.change_perform` — **what an action makes of a state is one of these changes**.
-/

namespace TokenStream

/-! ### Names -/

/-- A name under which something is kept.  Contexts, scanners and streams have names of their
own. -/
inductive Name
  /-- The name of a context. -/
  | context (name : String)
  /-- The name of a scanner. -/
  | scanner (name : String)
  /-- The name of a stream. -/
  | stream (name : String)
deriving DecidableEq, Repr, Inhabited

/-- The names that an action mentions. -/
def Action.names : Action → List Name
  | .get | .set _ | .reset => []
  | .enter name _ | .exit name _ => [.context name]
  | .make name _ _ _ | .source name => [.scanner name]
  | .stream made name => [.scanner made, .stream name]
  | .scan name _ _ _ | .next name | .drain name | .close name | .serialize name _ => [.stream name]

mutual

/-- The names that a step mentions. -/
def Step.names : Step → List Name
  | .act action => action.names
  | .thread steps => namesOf steps

/-- The names that steps in a row mention. -/
def namesOf : List Step → List Name
  | [] => []
  | step :: steps => step.names ++ namesOf steps

end

theorem namesOf_append (steps more : List Step) :
    namesOf (steps ++ more) = namesOf steps ++ namesOf more := by
  induction steps with
  | nil => rfl
  | cons step rest ih => simp only [List.cons_append, namesOf, ih, List.append_assoc]

/-- Whether an action is about scanners and streams, and not about settings alone. -/
def Action.isWork : Action → Bool
  | .get | .set _ | .reset | .enter _ _ | .exit _ _ => false
  | _ => true

/-! ### Reading a stream -/

/-- What reading a stream comes to. -/
structure Reading where
  /-- The answer. -/
  answer : Answer
  /-- The phase of the stream afterwards. -/
  phase : Phase
  /-- The scanner afterwards. -/
  scanner : Scanner
  /-- What is reported on the way. -/
  events : List Event

namespace Reading

/-- A pull. -/
def next (phase : Phase) (scanner : Scanner) : Reading :=
  let pull := scanner.pull phase
  ⟨pull.answer, pull.phase, pull.scanner, pull.events⟩

/-- Pulls up to the end, with an answer made of what they come to. -/
def toEnd (answer : Drained → Answer) (phase : Phase) (scanner : Scanner) : Reading :=
  let drained := scanner.drain phase
  ⟨answer drained, .ended, drained.scanner, drained.events⟩

/-- The answer that serialized tokens are. -/
def serialized (indent : Json.Indent) (drained : Drained) : Answer :=
  match drained.stopped with
  | some failure => .failed (.scan failure)
  | none => .text (TokenStream.serialize indent drained.tokens)

end Reading

namespace Session

variable {session after : Session} {name : String} {action : Action}

/-- Reads the stream under a name in a certain way. -/
def readBy (session : Session) (name : String) (read : Phase → Scanner → Reading) :
    Answer × Session :=
  session.onStream name fun stream scanner =>
    let reading := read stream.phase scanner
    (reading.answer, session.afterReading name stream.origin reading.phase reading.scanner
      reading.events)

theorem perform_next (session : Session) (name : String) :
    session.perform (.next name) = session.readBy name .next := by
  simp only [perform, readBy, Reading.next, ← next_eq]

theorem perform_drain (session : Session) (name : String) :
    session.perform (.drain name) =
      session.readBy name (.toEnd fun drained => .tokens drained.tokens drained.stopped) := rfl

theorem perform_serialize (session : Session) (name : String) (indent : Json.Indent) :
    session.perform (.serialize name indent) =
      session.readBy name (.toEnd (Reading.serialized indent)) := by
  simp only [perform, readBy, Reading.toEnd, Reading.serialized, drain]
  congr 1
  funext stream scanner
  generalize scanner.drain stream.phase = drained
  cases drained.stopped <;> rfl

/-! ### Changes -/

/-- What an action can make of a state. -/
inductive Change (session : Session) (action : Action) : Session → Prop
  /-- The state stays as it is. -/
  | unchanged : session.Change action session
  /-- Settings become active. -/
  | activate (kind : action.isWork = false) (settings : Settings) :
      session.Change action (session.activate settings)
  /-- A context is entered. -/
  | enter {name : String} (kind : action.isWork = false) (mentioned : .context name ∈ action.names)
      (settings : Settings) : session.Change action (session.enter name settings)
  /-- A context is closed. -/
  | exit {name : String} (kind : action.isWork = false) (mentioned : .context name ∈ action.names)
      (context : Context) : session.Change action (session.exit name context)
  /-- A scanner is made. -/
  | addScanner {name : String} (kind : action.isWork = true)
      (mentioned : .scanner name ∈ action.names) (scanner : Scanner) :
      session.Change action (session.addScanner name scanner)
  /-- A stream is made, of a scanner that is mentioned or has no name. -/
  | putStream {name : String} (kind : action.isWork = true)
      (mentioned : .stream name ∈ action.names) {origin : Origin}
      (reads : ∀ made number, origin = .named made number → .scanner made ∈ action.names) :
      session.Change action (session.putStream name ⟨origin, .fresh⟩)
  /-- A stream is closed. -/
  | close {name : String} (kind : action.isWork = true) (mentioned : .stream name ∈ action.names)
      {stream : Stream} (found : session.streams.find? name = some stream) :
      session.Change action (session.putStream name { stream with phase := .ended })
  /-- A stream is read. -/
  | read {name : String} (kind : action.isWork = true) (mentioned : .stream name ∈ action.names)
      {stream : Stream} (found : session.streams.find? name = some stream) (phase : Phase)
      (scanner : Scanner) (events : List Event) :
      session.Change action (session.afterReading name stream.origin phase scanner events)

theorem find?_of_stream? {stream : Stream} {scanner : Scanner}
    (h : session.stream? name = some (stream, scanner)) :
    session.streams.find? name = some stream := by
  unfold stream? at h
  cases hfind : session.streams.find? name with
  | none => rw [hfind] at h; contradiction
  | some found =>
    rw [hfind] at h
    simp only [Option.bind_eq_bind, Option.bind_some, Option.pure_def,
      Option.bind_eq_some_iff, Option.some.injEq, Prod.mk.injEq] at h
    obtain ⟨_, _, rfl, _⟩ := h
    rfl

theorem Change.withSettings {change : Settings → Session}
    (chosen : Except Settings.NotObject Settings)
    (h : ∀ settings, session.Change action (change settings)) :
    session.Change action (session.withSettings chosen change).2 := by
  cases chosen with
  | error fault => exact .unchanged
  | ok settings => exact h settings

theorem Change.onStream {change : Stream → Scanner → Answer × Session}
    (h : ∀ stream scanner, session.streams.find? name = some stream →
      session.Change action (change stream scanner).2) :
    session.Change action (session.onStream name change).2 := by
  unfold Session.onStream
  split
  case h_1 stream scanner hstream => exact h stream scanner (find?_of_stream? hstream)
  case h_2 => exact .unchanged

theorem Change.readBy (kind : action.isWork = true) (mentioned : .stream name ∈ action.names)
    (read : Phase → Scanner → Reading) :
    session.Change action (session.readBy name read).2 :=
  .onStream fun _ _ found => .read kind mentioned found _ _ _

/-- **What an action makes of a state is one of these changes.** -/
theorem change_perform (session : Session) (action : Action) :
    session.Change action (session.perform action).2 := by
  cases action with
  | get => exact .unchanged
  | set value => exact .withSettings _ (.activate rfl)
  | reset => exact .activate rfl _
  | enter name value => exact .withSettings _ (.enter rfl (List.mem_singleton_self _))
  | exit name leaving =>
    simp only [perform]
    split
    · exact .exit rfl (List.mem_singleton_self _) _
    · exact .unchanged
  | make name source sourceFile value =>
    exact .withSettings _ fun settings => .addScanner rfl (List.mem_singleton_self _) _
  | source name =>
    simp only [perform]
    split <;> exact .unchanged
  | stream made name =>
    simp only [perform]
    split
    · exact .unchanged
    · exact .putStream rfl (by simp [Action.names]) (by simp [Action.names])
  | scan name source sourceFile value =>
    exact .withSettings _ fun settings => .putStream rfl (List.mem_singleton_self _) (by simp)
  | next name =>
    rw [perform_next]
    exact .readBy rfl (List.mem_singleton_self _) _
  | drain name =>
    rw [perform_drain]
    exact .readBy rfl (List.mem_singleton_self _) _
  | close name =>
    exact .onStream fun _ _ found => .close rfl (List.mem_singleton_self _) found
  | serialize name indent =>
    rw [perform_serialize]
    exact .readBy rfl (List.mem_singleton_self _) _

end Session

end TokenStream
