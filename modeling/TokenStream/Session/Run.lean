import TokenStream.Session.Registry
import TokenStream.Session.Step
import TokenStream.Token.Record

/-!
# Running a session

Scanners, streams and contexts are kept under names that all threads share.  Making a scanner
under a name that is in use leaves the old scanner to the streams that read it.  Each thread has
active settings of its own, which start as the default.

A context remembers the settings that were active when it was entered and makes them active
again when it is closed, in the thread that closes it, whatever has happened in between and in
whatever way it is left.  A context that is entered under the name of an open one displaces it: once
the new context is in force, the old one is closed.

## Main definitions

* `Session` — the state between two steps.
* `Session.perform` — what an action comes to, and the state after it.
* `Session.run` — what is shown for steps in a row, and the state after them.
* `runSession` — what is shown for a whole session.
-/

namespace TokenStream

/-- The scanner that a stream reads. -/
inductive Origin
  /-- A scanner that no other stream reads. -/
  | own (scanner : Scanner)
  /-- One of the scanners made under a name; the first of them has number zero. -/
  | named (scanner : String) (number : Nat)
deriving Repr, Inhabited

/-- A stream. -/
structure Stream where
  /-- The scanner that it reads. -/
  origin : Origin
  /-- Whether it has been pulled, and whether it has ended. -/
  phase : Phase
deriving Repr, Inhabited

/-- A context for settings. -/
structure Context where
  /-- The settings that were active when it was entered. -/
  found : Settings
  /-- Whether it has not been closed yet. -/
  isOpen : Bool
deriving Repr, Inhabited

/-- The state of a session, as the running thread sees it. -/
structure Session where
  /-- The active settings of the thread. -/
  active : Settings
  /-- All scanners made under each name, in the order of their making. -/
  scanners : Registry (List Scanner)
  /-- The streams. -/
  streams : Registry Stream
  /-- The contexts. -/
  contexts : Registry Context
  /-- What has been reported on the side since the last step. -/
  events : List Event
deriving Repr, Inhabited

namespace Session

/-- Before the first step nothing is kept, and the default settings are active. -/
def start : Session := ⟨Settings.default, .empty, .empty, .empty, []⟩

/-! ### Settings -/

/-- Makes settings the active ones. -/
def activate (session : Session) (settings : Settings) : Session :=
  { session with active := settings }

/-- Makes the settings active that an open context has found. -/
def restore (session : Session) : Option Context → Session
  | some ⟨found, true⟩ => session.activate found
  | _ => session

/-- Enters a context under a name. -/
def enter (session : Session) (name : String) (settings : Settings) : Session :=
  let displaced := session.contexts.find? name
  let entered := { session with contexts := session.contexts.put name ⟨session.active, true⟩ }
  (entered.activate settings).restore displaced

/-- Closes the context under a name.  Closing it once more does nothing. -/
def exit (session : Session) (name : String) (context : Context) : Session :=
  ({ session with
      contexts := session.contexts.put name { context with isOpen := false } }).restore context

/-- The settings that an action names, or else the active ones. -/
def chosen (session : Session) : Option Value → Except Settings.NotObject Settings
  | none => .ok session.active
  | some value => Settings.ofValue value

/-! ### Scanners and streams -/

/-- The scanners made under a name. -/
def madeUnder (session : Session) (name : String) : List Scanner :=
  (session.scanners.find? name).getD []

/-- The scanner now known under a name: the last that was made. -/
def scanner? (session : Session) (name : String) : Option Scanner :=
  (session.madeUnder name).getLast?

/-- Makes a scanner known under a name. -/
def addScanner (session : Session) (name : String) (scanner : Scanner) : Session :=
  { session with
    scanners := session.scanners.put name (session.madeUnder name ++ [scanner]) }

/-- The scanner that a stream reads. -/
def scannerOf? (session : Session) : Origin → Option Scanner
  | .own scanner => some scanner
  | .named name number => (session.madeUnder name)[number]?

/-- The stream under a name, with the scanner that it reads. -/
def stream? (session : Session) (name : String) : Option (Stream × Scanner) := do
  let stream ← session.streams.find? name
  let scanner ← session.scannerOf? stream.origin
  return (stream, scanner)

/-- Keeps a stream under a name. -/
def putStream (session : Session) (name : String) (stream : Stream) : Session :=
  { session with streams := session.streams.put name stream }

/-- The state after the stream under a name has been read. -/
def afterReading (session : Session) (name : String) (origin : Origin) (phase : Phase)
    (scanner : Scanner) (events : List Event) : Session :=
  let session := { session with events := session.events ++ events }
  match origin with
  | .own _ => session.putStream name ⟨.own scanner, phase⟩
  | .named made number =>
    { session.putStream name ⟨.named made number, phase⟩ with
      scanners := session.scanners.put made ((session.madeUnder made).set number scanner) }

/-- Pulls a stream once. -/
def next (session : Session) (name : String) (stream : Stream) (scanner : Scanner) :
    Answer × Session :=
  let pull := scanner.pull stream.phase
  let after := session.afterReading name stream.origin pull.phase pull.scanner pull.events
  match pull.result with
  | .ok token => (.token token, after)
  | .error failure => (.failed (.scan failure), after)

/-- Pulls a stream until it ends. -/
def drain (session : Session) (name : String) (stream : Stream) (scanner : Scanner) :
    Drained × Session :=
  let drained := scanner.drain stream.phase
  (drained, session.afterReading name stream.origin .ended drained.scanner drained.events)

/-! ### Actions -/

/-- An action on the stream under a name. -/
def onStream (session : Session) (name : String)
    (action : Stream → Scanner → Answer × Session) : Answer × Session :=
  match session.stream? name with
  | some (stream, scanner) => action stream scanner
  | none => (.failed (.unknownName name), session)

/-- An action with settings, unless they are at fault. -/
def withSettings (session : Session) (settings : Except Settings.NotObject Settings)
    (action : Settings → Session) : Answer × Session :=
  match settings with
  | .ok settings => (.done, action settings)
  | .error fault => (.failed (.settings fault), session)

/-- What an action comes to, and the state after it. -/
def perform (session : Session) : Action → Answer × Session
  | .get => (.done, session)
  | .set value => session.withSettings (Settings.ofValue value) session.activate
  | .reset => (.done, session.activate Settings.default)
  | .enter name value => session.withSettings (Settings.ofValue value) (session.enter name)
  | .exit name leaving =>
    -- Restoring is one and the same step, whether or not an error passes through.
    match session.contexts.find? name with
    | some context => (.exited leaving, session.exit name context)
    | none => (.failed (.unknownName name), session)
  | .make name source sourceFile value =>
    session.withSettings (session.chosen value) fun settings =>
      session.addScanner name (.make source sourceFile settings)
  | .source name =>
    match session.scanner? name with
    | some scanner => (.source scanner.source, session)
    | none => (.failed (.unknownName name), session)
  | .stream made name =>
    match session.madeUnder made with
    | [] => (.failed (.unknownName made), session)
    | _ :: older => (.done, session.putStream name ⟨.named made older.length, .fresh⟩)
  | .scan name source sourceFile value =>
    session.withSettings (session.chosen value) fun settings =>
      session.putStream name ⟨.own (.make source sourceFile settings), .fresh⟩
  | .next name => session.onStream name (session.next name)
  | .drain name =>
    session.onStream name fun stream scanner =>
      let (drained, after) := session.drain name stream scanner
      (.tokens drained.tokens drained.stopped, after)
  | .close name =>
    session.onStream name fun stream _ =>
      (.done, session.putStream name { stream with phase := .ended })
  | .serialize name indent =>
    session.onStream name fun stream scanner =>
      let (drained, after) := session.drain name stream scanner
      match drained.stopped with
      | some failure => (.failed (.scan failure), after)
      | none => (.text (TokenStream.serialize indent drained.tokens), after)

/-! ### Steps -/

/-- How far each named scanner has got. -/
def positions (session : Session) : List (String × Nat) :=
  session.scanners.entries.filterMap fun entry =>
    entry.2.getLast?.map fun scanner => (entry.1, scanner.position)

/-- What is shown of the state. -/
def standing (session : Session) : Standing :=
  ⟨session.active, session.positions, session.events⟩

/-- The state after it has been shown: what was reported is not reported again. -/
def shown (session : Session) : Session := { session with events := [] }

/-- The state as a new thread finds it. -/
def inThread (session : Session) : Session := session.activate Settings.default

mutual

/-- What is shown for a step, and the state after it.  Another thread shares all but the active
settings. -/
def runStep (session : Session) : Step → Report × Session
  | .act action =>
    let (answer, after) := session.perform action
    (.act answer after.standing, after.shown)
  | .thread steps =>
    let (reports, inside) := run session.inThread steps
    let after := inside.activate session.active
    (.thread reports after.standing, after.shown)

/-- What is shown for steps in a row, and the state after them. -/
def run (session : Session) : List Step → List Report × Session
  | [] => ([], session)
  | step :: steps =>
    let (report, after) := session.runStep step
    let (reports, last) := run after steps
    (report :: reports, last)

end

end Session

/-- What is shown for a whole session. -/
def runSession (steps : List Step) : List Report := (Session.start.run steps).1

end TokenStream
