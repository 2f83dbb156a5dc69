import TokenStream.Scan.Piece
import TokenStream.Scanner.Failure

/-!
# Scanners

A scanner goes through the pieces of a source once, from the first to the last.  It knows how
far it has got, and what is still ahead; its settings are those that it was made with.

A scanner is read through streams.  A stream yields one token for each pull.  The length of the
source is checked at its first pull.  Any number of streams may share a scanner: they share its
place, so that each token is handed out once, to the stream that asks first.  A stream that has
ended, for whatever reason, yields nothing more.

## Main definitions

* `Scanner` — a source, the place reached and the pieces ahead; `Scanner.make` starts one.
* `Cursor.advance` — to the next token, or to where a scan ends.
* `Cursor.drain` — all tokens up to where a scan ends.
* `Phase` — whether a stream has been pulled, and whether it has ended.
* `Scanner.pull` — the next token of a stream.
* `Scanner.drain` — all that a stream still yields.
* `scan` — all that a fresh stream of a fresh scanner yields.
-/

namespace TokenStream

/-! ### The place reached -/

/-- How far a scan has got, and what is still ahead. -/
structure Cursor where
  /-- How many characters of the source have been passed. -/
  offset : Nat
  /-- The pieces that have not been passed. -/
  ahead : List Piece
deriving DecidableEq, Repr, Inhabited

/-- What a scan comes to when it looks for its next token. -/
inductive Outcome
  /-- A token. -/
  | token (token : Token)
  /-- A strict scan meets a character that no rule recognises. -/
  | refused (c : Char)
  /-- No token is left. -/
  | finished
deriving DecidableEq, Repr, Inhabited

/-- The way to the next token. -/
structure Advance where
  /-- What it leads to. -/
  outcome : Outcome
  /-- The place that is reached: after a token, or before a character that is refused. -/
  cursor : Cursor
  /-- What is reported on the way. -/
  events : List Event
deriving DecidableEq, Repr, Inhabited

/-- The character of a piece before which a strict scan stops. -/
def Piece.refused? (strict : Bool) : Piece → Option Char
  | .unknown c => if strict then some c else none
  | _ => none

namespace Cursor

/-- The way from an offset, with pieces ahead, to the next token. -/
def advanceFrom (strict : Bool) (offset : Nat) : List Piece → Advance
  | [] => ⟨.finished, ⟨offset, []⟩, []⟩
  | piece :: rest =>
    match piece.refused? strict, piece.token? offset with
    | some c, _ => ⟨.refused c, ⟨offset, piece :: rest⟩, []⟩
    | none, some token =>
      ⟨.token token, ⟨offset + piece.width, rest⟩, (piece.event? offset).toList⟩
    | none, none =>
      let later := advanceFrom strict (offset + piece.width) rest
      { later with events := (piece.event? offset).toList ++ later.events }

/-- The way to the next token. -/
def advance (strict : Bool) (cursor : Cursor) : Advance :=
  advanceFrom strict cursor.offset cursor.ahead

/-- The way to where a scan ends. -/
structure Drain where
  /-- The tokens on the way. -/
  tokens : List Token
  /-- The character that ends it, if it does not end with the source. -/
  refused : Option Char
  /-- The place that is reached. -/
  cursor : Cursor
  /-- What is reported on the way. -/
  events : List Event
deriving DecidableEq, Repr, Inhabited

/-- The way from an offset, with pieces ahead, to where a scan ends. -/
def drainFrom (strict : Bool) (offset : Nat) : List Piece → Drain
  | [] => ⟨[], none, ⟨offset, []⟩, []⟩
  | piece :: rest =>
    match piece.refused? strict with
    | some c => ⟨[], some c, ⟨offset, piece :: rest⟩, []⟩
    | none =>
      let later := drainFrom strict (offset + piece.width) rest
      { later with
        tokens := (piece.token? offset).toList ++ later.tokens
        events := (piece.event? offset).toList ++ later.events }

/-- The way to where a scan ends. -/
def drain (strict : Bool) (cursor : Cursor) : Drain :=
  drainFrom strict cursor.offset cursor.ahead

end Cursor

/-! ### Scanners and their streams -/

/-- A source on its way through a scan. -/
structure Scanner where
  /-- The source. -/
  source : String
  /-- The file of the source, if it is known. -/
  sourceFile : Option String
  /-- The settings it was made with. -/
  settings : Settings
  /-- How far it has got. -/
  cursor : Cursor
deriving Repr, Inhabited

/-- Whether a stream has been pulled, and whether it has ended. -/
inductive Phase
  /-- It has not been pulled yet. -/
  | fresh
  /-- It has been pulled and may have more to yield. -/
  | running
  /-- It yields nothing more. -/
  | ended
deriving DecidableEq, Repr, Inhabited

/-- What a pull comes to. -/
structure Pull where
  /-- The token, nothing at the end, or what ends the stream early. -/
  result : Except Failure (Option Token)
  /-- The phase of the stream afterwards. -/
  phase : Phase
  /-- The scanner afterwards. -/
  scanner : Scanner
  /-- What is reported on the way. -/
  events : List Event
deriving Inhabited

/-- What pulling to the end comes to. -/
structure Drained where
  /-- The tokens. -/
  tokens : List Token
  /-- What ends the stream early, if anything does. -/
  stopped : Option Failure
  /-- The scanner afterwards. -/
  scanner : Scanner
  /-- What is reported on the way. -/
  events : List Event
deriving Inhabited

namespace Scanner

/-- A scanner at the start of a source, with rules of its own. -/
def withRules (rules : List Rule) (source : String) (sourceFile : Option String)
    (settings : Settings) : Scanner :=
  ⟨source, sourceFile, settings, ⟨0, pieces rules none source.toList⟩⟩

/-- A scanner at the start of a source. -/
def make (source : String) (sourceFile : Option String) (settings : Settings) : Scanner :=
  withRules Rule.table source sourceFile settings

/-- How many characters of the source have been passed. -/
def position (scanner : Scanner) : Nat := scanner.cursor.offset

/-- The failure of a strict scan at a character. -/
def refusal (scanner : Scanner) (offset : Nat) (c : Char) : Failure :=
  .source ⟨.unexpected c, some offset, scanner.sourceFile⟩

/-- The failure that the length of the source is, if it is one. -/
def lengthFailure? (scanner : Scanner) : Option Failure :=
  let length := scanner.source.length
  match scanner.settings.checkLength length with
  | .within => none
  | .exceeded limit => some (.source ⟨.tooLong length limit, none, scanner.sourceFile⟩)
  | .incomparable typeName => some (.incomparableLimit typeName)

/-- The next token of a stream that has passed the check of the length. -/
def resume (scanner : Scanner) : Pull :=
  let way := scanner.cursor.advance scanner.settings.isStrict
  let after := { scanner with cursor := way.cursor }
  match way.outcome with
  | .token token => ⟨.ok (some token), .running, after, way.events⟩
  | .refused c => ⟨.error (scanner.refusal way.cursor.offset c), .ended, after, way.events⟩
  | .finished => ⟨.ok none, .ended, after, way.events⟩

/-- The next token of a stream in a given phase. -/
def pull (scanner : Scanner) : Phase → Pull
  | .ended => ⟨.ok none, .ended, scanner, []⟩
  | .running => scanner.resume
  | .fresh =>
    match scanner.lengthFailure? with
    | some failure => ⟨.error failure, .ended, scanner, []⟩
    | none => scanner.resume

/-- All that a stream still yields that has passed the check of the length. -/
def drainRunning (scanner : Scanner) : Drained :=
  let way := scanner.cursor.drain scanner.settings.isStrict
  ⟨way.tokens, way.refused.map (scanner.refusal way.cursor.offset),
    { scanner with cursor := way.cursor }, way.events⟩

/-- All that a stream in a given phase still yields. -/
def drain (scanner : Scanner) : Phase → Drained
  | .ended => ⟨[], none, scanner, []⟩
  | .running => scanner.drainRunning
  | .fresh =>
    match scanner.lengthFailure? with
    | some failure => ⟨[], some failure, scanner, []⟩
    | none => scanner.drainRunning

end Scanner

/-- All that a scan of a source yields. -/
def scan (source : String) (sourceFile : Option String) (settings : Settings) : Drained :=
  (Scanner.make source sourceFile settings).drain .fresh

end TokenStream
