import TokenStream.Json.Write
import TokenStream.Scanner.Basic

/-!
# Steps of a session

In a session, threads change the active settings and read scanners through streams, step by
step.  A thread runs to its end before the step after it.

## Main definitions

* `Leaving` — the ways in which control leaves a context.
* `Action` — what a thread can do by itself.
* `Step` — an action, or the start of another thread.
* `Answer` — what an action comes to.
* `Standing`, `Report` — the state that is shown after each step, and all that is shown.
-/

namespace TokenStream

/-- The ways in which control leaves a context. -/
inductive Leaving
  /-- All that is to be done inside is done. -/
  | finished
  /-- An error passes through. -/
  | raised
deriving DecidableEq, Repr, Inhabited

/-- What a thread can do by itself.  Settings are given as the value that they come from. -/
inductive Action
  /-- Look at the active settings. -/
  | get
  /-- Make settings the active ones. -/
  | set (settings : Value)
  /-- Make the default settings the active ones. -/
  | reset
  /-- Make settings the active ones for as long as a context is open. -/
  | enter (context : String) (settings : Value)
  /-- Close a context, in one of the ways of leaving it. -/
  | exit (context : String) (leaving : Leaving)
  /-- Make a scanner, with the active settings unless others are given. -/
  | make (scanner : String) (source : String) (sourceFile : Option String)
      (settings : Option Value)
  /-- Ask a scanner for its source. -/
  | source (scanner : String)
  /-- Make a stream of a scanner. -/
  | stream (scanner : String) (stream : String)
  /-- Make a stream of a scanner of its own. -/
  | scan (stream : String) (source : String) (sourceFile : Option String)
      (settings : Option Value)
  /-- Pull a stream once. -/
  | next (stream : String)
  /-- Pull a stream until it ends. -/
  | drain (stream : String)
  /-- End a stream. -/
  | close (stream : String)
  /-- Serialize the tokens that a stream still yields. -/
  | serialize (stream : String) (indent : Json.Indent)
deriving Repr, Inhabited

/-- One step of a thread. -/
inductive Step
  /-- Something the thread does by itself. -/
  | act (action : Action)
  /-- Another thread, with its steps. -/
  | thread (steps : List Step)
deriving Inhabited

/-- Why an action fails. -/
inductive ActionFault
  /-- A scan fails. -/
  | scan (failure : Failure)
  /-- A value gives no settings. -/
  | settings (fault : Settings.NotObject)
  /-- Nothing is kept under a name. -/
  | unknownName (name : String)
deriving Repr, Inhabited

/-- The fault in words. -/
def ActionFault.message : ActionFault → String
  | scan failure => failure.message
  | settings fault => fault.message
  | unknownName name => quoted name

/-- What an action comes to. -/
inductive Answer
  /-- It is done. -/
  | done
  /-- A context is closed.  Control goes on in the way in which it has left the context, so an error
  is not held back. -/
  | exited (leaving : Leaving)
  /-- The source of a scanner. -/
  | source (text : String)
  /-- The next token of a stream, or nothing at its end. -/
  | token (token : Option Token)
  /-- The tokens of a stream, and what ends it early. -/
  | tokens (tokens : List Token) (stopped : Option Failure)
  /-- Tokens in serialized form. -/
  | text (serialized : String)
  /-- It fails. -/
  | failed (fault : ActionFault)
deriving Repr, Inhabited

/-- What is shown after each step. -/
structure Standing where
  /-- The active settings of the thread. -/
  settings : Settings
  /-- How far each named scanner has got. -/
  positions : List (String × Nat)
  /-- What has been reported on the side since the last step. -/
  events : List Event
deriving Repr, Inhabited

/-- All that is shown for a step. -/
inductive Report
  /-- What an action comes to, and the state after it. -/
  | act (answer : Answer) (standing : Standing)
  /-- What is shown for the steps of another thread, and the state after it. -/
  | thread (reports : List Report) (standing : Standing)
deriving Inhabited

end TokenStream
