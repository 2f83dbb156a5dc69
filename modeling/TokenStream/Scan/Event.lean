import TokenStream.Text.Integer
import TokenStream.Text.Quoted

/-!
# Diagnostics

What a scan reports on the side: characters that no rule recognises, and line endings that a
backslash takes back.  Both are details for debugging; a listener sets the level from which on
records reach it.

## Main definitions

* `Event` — the two things that are reported, and `Event.record` — as a log record.
* `Level`, `LogRecord` — importance, and what a listener gets.
* `Level.heard` — the records that pass a listener's level.
* `loggerName` — the name under which a part of the library reports.
-/

namespace TokenStream

/-- How important a record is. -/
inductive Level
  /-- Details that help to find a fault. -/
  | debug
  /-- Confirmation that things go as they should. -/
  | info
  /-- Something unexpected. -/
  | warning
  /-- A task that failed. -/
  | error
  /-- A program that cannot go on. -/
  | critical
deriving DecidableEq, Repr, Inhabited

namespace Level

/-- The levels in ascending order. -/
def all : List Level := [debug, info, warning, error, critical]

/-- The written form of a level. -/
def name : Level → String
  | debug => "DEBUG"
  | info => "INFO"
  | warning => "WARNING"
  | error => "ERROR"
  | critical => "CRITICAL"

/-- The level with a given written form. -/
def ofName? (text : String) : Option Level := all.find? fun level => level.name == text

/-- The place of a level in the ascending order. -/
def rank (level : Level) : Nat := all.idxOf level

end Level

/-- The name at the root of all loggers of the library. -/
def rootLogger : String := "puma"

/-- The name under which a part of the library reports: its own name, below the root unless it
stands there already. -/
def loggerName (name : String) : String :=
  if name = rootLogger ∨ (rootLogger ++ ".").toList.isPrefixOf name.toList then name
  else rootLogger ++ "." ++ name

/-- What a listener gets. -/
structure LogRecord where
  /-- How important it is. -/
  level : Level
  /-- The name of the part that reports. -/
  logger : String
  /-- The report in words. -/
  message : String
deriving DecidableEq, Repr, Inhabited

/-- The records that reach a listener who has set a level. -/
def Level.heard (threshold : Level) (records : List LogRecord) : List LogRecord :=
  records.filter fun record => threshold.rank ≤ record.level.rank

/-- What a scan reports on the side. -/
inductive Event
  /-- No rule recognises the character at the offset. -/
  | unknownCharacter (c : Char) (offset : Nat)
  /-- The line ending at the offset follows a backslash and does not end the line. -/
  | lineContinuation (offset : Nat)
deriving DecidableEq, Repr, Inhabited

namespace Event

/-- The report in words. -/
def message : Event → String
  | unknownCharacter c offset =>
    "Unknown character " ++ quoted (String.ofList [c]) ++ " at offset " ++ Integer.text offset
  | lineContinuation offset => "Line continuation at offset " ++ Integer.text offset

/-- The report as a record: all that a scan reports is for debugging. -/
def record (event : Event) : LogRecord where
  level := .debug
  logger := loggerName "puma.lexer.core"
  message := event.message

end Event

end TokenStream
