import TokenStream.Proofs.Effects
import TokenStream.Session.Run

/-!
# Streams that share a scanner

In a session, a scanner is made under a name and then read through streams under names of their
own.  Making, pulling and closing streams of one scanner, in any order, is a schedule.  What a
session does along a schedule depends on the scanner and on the phases of the streams alone, and
each action concerns one stream and the scanner.

## Main definitions

* `Session.runStreams` — a run of a session along a schedule.
* `Session.Shares` — all streams of a session read the same scanner.
* `Session.TakesTurn` — what a turn makes of a session.

## Main results

* `Session.Shares.perform` — **an action on a stream has its effect on the scanner and on this
  stream, and on nothing else**.
-/

namespace TokenStream

/-! ### Schedules -/

/-- The turns that are shown for a schedule. -/
def turnsOf : List StreamAction → List Report → List Turn
  | action :: schedule, .act answer _ :: reports => ⟨action, answer⟩ :: turnsOf schedule reports
  | _, _ => []

namespace Session

/-- The turns of a schedule for streams of the scanner under a name, and the state after them. -/
def runStreams (session : Session) (name : String) (schedule : List StreamAction) :
    List Turn × Session :=
  let (reports, after) := session.run (schedule.map fun action => .act (action.on name))
  (turnsOf schedule reports, after)

@[simp] theorem runStreams_nil (session : Session) (name : String) :
    session.runStreams name [] = ([], session) := rfl

@[simp] theorem runStreams_cons (session : Session) (name : String) (action : StreamAction)
    (schedule : List StreamAction) :
    session.runStreams name (action :: schedule) =
      (⟨action, (session.perform (action.on name)).1⟩ ::
          ((session.perform (action.on name)).2.shown.runStreams name schedule).1,
        ((session.perform (action.on name)).2.shown.runStreams name schedule).2) := by
  simp only [runStreams, List.map_cons, run, runStep, turnsOf]

/-! ### The scanner and the phases of its streams -/

/-- The phase of the stream under a name. -/
def phase? (session : Session) (stream : String) : Option Phase :=
  (session.streams.find? stream).map Stream.phase

/-- One scanner was made under a name, and all streams read it. -/
structure Shares (session : Session) (name : String) (scanner : Scanner) : Prop where
  /-- It is the only one under this name. -/
  made : session.madeUnder name = [scanner]
  /-- There are no streams of other scanners. -/
  origin : ∀ key stream, session.streams.find? key = some stream → stream.origin = .named name 0

variable {session : Session} {name : String} {scanner : Scanner}

theorem Shares.scanner? (h : session.Shares name scanner) :
    session.scanner? name = some scanner := by
  rw [Session.scanner?, h.made]
  rfl

/-- Before there are streams, all of them read the scanner that has been made. -/
theorem shares_addScanner (name : String) (scanner : Scanner) :
    (start.addScanner name scanner).Shares name scanner := by
  constructor
  case made =>
    rw [madeUnder, addScanner, Registry.find?_put_self]
    rfl
  case origin =>
    intro key stream hstream
    contradiction

theorem Shares.shown (h : session.Shares name scanner) : session.shown.Shares name scanner :=
  ⟨h.made, h.origin⟩

/-- A stream is found with the scanner that all streams read. -/
theorem Shares.stream? (h : session.Shares name scanner) (key : String) :
    session.stream? key =
      (session.phase? key).map fun phase => (⟨.named name 0, phase⟩, scanner) := by
  unfold Session.stream? phase?
  cases hfind : session.streams.find? key with
  | none => rfl
  | some stream =>
    obtain ⟨origin, phase⟩ := stream
    obtain rfl : origin = .named name 0 := h.origin key _ hfind
    simp only [Option.bind_eq_bind, Option.bind_some, scannerOf?, h.made, Option.map_some]
    rfl

theorem Shares.putStream (h : session.Shares name scanner) (key : String) (phase : Phase) :
    (session.putStream key ⟨.named name 0, phase⟩).Shares name scanner := by
  constructor
  case made => exact h.made
  case origin =>
    intro other stream hstream
    by_cases hkey : key = other
    · subst hkey
      rw [Session.putStream, Registry.find?_put_self] at hstream
      rw [← Option.some.inj hstream]
    · rw [Session.putStream, Registry.find?_put_of_ne _ _ hkey] at hstream
      exact h.origin other stream hstream

theorem phase?_putStream (session : Session) (key : String) (stream : Stream) :
    (session.putStream key stream).phase? key = some stream.phase := by
  rw [phase?, putStream, Registry.find?_put_self]
  rfl

theorem phase?_putStream_of_ne (session : Session) {key other : String} (stream : Stream)
    (h : other ≠ key) : (session.putStream key stream).phase? other = session.phase? other := by
  rw [phase?, putStream, Registry.find?_put_of_ne _ _ h.symm]
  rfl

end Session

namespace Session

variable {session : Session} {name : String} {scanner : Scanner}

/-- A turn of a session whose streams share a scanner. -/
structure TakesTurn (session : Session) (name : String) (scanner : Scanner) (turn : Turn)
    (after : Scanner) (last : Session) : Prop where
  /-- The action has its effect on its stream and on the scanner. -/
  effect : turn.action.Effect scanner (session.phase? turn.action.stream) turn.answer after
    (last.phase? turn.action.stream)
  /-- The streams still share the scanner. -/
  shares : last.Shares name after
  /-- Other streams are as they were. -/
  others : ∀ key ≠ turn.action.stream, last.phase? key = session.phase? key

/-- Nothing is done with a stream that does not exist. -/
theorem Shares.takesTurn_unknown (h : session.Shares name scanner) {action : StreamAction}
    (hold : ∀ name, action ≠ .create name) (hphase : session.phase? action.stream = none) :
    session.TakesTurn name scanner ⟨action, .failed (.unknownName action.stream)⟩ scanner
      session := by
  refine ⟨?_, h, fun _ _ => rfl⟩
  rw [hphase]
  exact .unknown hold

/-- A stream is answered by what pulling the scanner comes to. -/
theorem next_eq (session : Session) (key : String) (stream : Stream) (scanner : Scanner) :
    session.next key stream scanner =
      ((scanner.pull stream.phase).answer,
        session.afterReading key stream.origin (scanner.pull stream.phase).phase
          (scanner.pull stream.phase).scanner (scanner.pull stream.phase).events) := by
  simp only [next, Pull.answer]
  generalize scanner.pull stream.phase = pull
  cases pull.result <;> rfl

/-- After a stream has been read, the scanner is where the reading has taken it. -/
theorem Shares.afterReading (h : session.Shares name scanner) (key : String) (phase : Phase)
    (after : Scanner) (events : List Event) :
    (session.afterReading key (.named name 0) phase after events).Shares name after := by
  constructor
  case made =>
    have hmade : (({ session with events := session.events ++ events } : Session).madeUnder
        name).set 0 after = [after] := by
      rw [show ({ session with events := session.events ++ events } : Session).madeUnder name =
        [scanner] from h.made]
      rfl
    simp only [Session.afterReading, hmade]
    rw [madeUnder, Registry.find?_put_self]
    rfl
  case origin => exact (h.putStream key phase).origin

theorem phase?_afterReading (session : Session) (key name : String) (number : Nat) (phase : Phase)
    (after : Scanner) (events : List Event) :
    (session.afterReading key (.named name number) phase after events).phase? key = some phase :=
  phase?_putStream session key ⟨.named name number, phase⟩

theorem phase?_afterReading_of_ne (session : Session) {key other : String} (name : String)
    (number : Nat) (phase : Phase) (after : Scanner) (events : List Event) (h : other ≠ key) :
    (session.afterReading key (.named name number) phase after events).phase? other =
      session.phase? other :=
  phase?_putStream_of_ne session ⟨.named name number, phase⟩ h

/-- An action on a stream that exists, with the scanner that it reads. -/
theorem Shares.onStream (h : session.Shares name scanner) {key : String} {phase : Phase}
    (hphase : session.phase? key = some phase)
    (action : Stream → Scanner → Answer × Session) :
    session.onStream key action = action ⟨.named name 0, phase⟩ scanner := by
  rw [Session.onStream, h.stream?, hphase]
  rfl

/-- Nothing is done with a stream that does not exist. -/
theorem Shares.onStream_unknown (h : session.Shares name scanner) {key : String}
    (hphase : session.phase? key = none) (action : Stream → Scanner → Answer × Session) :
    session.onStream key action = (.failed (.unknownName key), session) := by
  rw [Session.onStream, h.stream?, hphase]
  rfl

/-- **An action on a stream has its effect on the scanner and on this stream, and on nothing
else.** -/
theorem Shares.perform (h : session.Shares name scanner) (action : StreamAction) :
    ∃ after, session.TakesTurn name scanner ⟨action, (session.perform (action.on name)).1⟩ after
      (session.perform (action.on name)).2 := by
  cases action with
  | create key =>
    have hperform : session.perform (.stream name key) =
        (.done, session.putStream key ⟨.named name 0, .fresh⟩) := by
      simp only [Session.perform, h.made]
      rfl
    rw [StreamAction.on, hperform]
    refine ⟨scanner, ?_, h.putStream key .fresh, fun other hother =>
      phase?_putStream_of_ne session _ hother⟩
    simp only [StreamAction.stream, phase?_putStream]
    exact .create
  | pull key =>
    rw [StreamAction.on, Session.perform]
    cases hphase : session.phase? key with
    | none =>
      rw [h.onStream_unknown hphase]
      exact ⟨scanner, h.takesTurn_unknown (by simp) hphase⟩
    | some phase =>
      rw [h.onStream hphase, next_eq]
      refine ⟨(scanner.pull phase).scanner, ?_, h.afterReading _ _ _ _, fun other hother =>
        phase?_afterReading_of_ne session _ _ _ _ _ hother⟩
      simp only [StreamAction.stream, phase?_afterReading, hphase]
      exact .pull
  | close key =>
    rw [StreamAction.on, Session.perform]
    cases hphase : session.phase? key with
    | none =>
      rw [h.onStream_unknown hphase]
      exact ⟨scanner, h.takesTurn_unknown (by simp) hphase⟩
    | some phase =>
      rw [h.onStream hphase]
      refine ⟨scanner, ?_, h.putStream key .ended, fun other hother =>
        phase?_putStream_of_ne session _ hother⟩
      simp only [StreamAction.stream, phase?_putStream, hphase]
      exact .close

end Session

end TokenStream
