import TokenStream.Scanner.Settings

/-!
# Failures of a scan

A scan fails at a character that no rule recognises, if it is strict, and on a source that is
too long.  Such an error has a place: the file, if one is known, and the offset, if there is
one.  A limit that cannot be compared with a length is a failure of another sort, without a
place.

## Main definitions

* `ScanError` — an error with its place.
* `ScanError.location`, `ScanError.message` — the place, and the whole error in words.
* `Failure` — all that can end a scan early.
-/

namespace TokenStream

/-- What is wrong with a source. -/
inductive ScanError.Cause
  /-- No rule recognises a character. -/
  | unexpected (c : Char)
  /-- The source is longer than the limit. -/
  | tooLong (length : Nat) (limit : Value)
  /-- Something that the reporter states in words. -/
  | stated (text : String)
deriving Repr, Inhabited

/-- What is wrong, in words. -/
def ScanError.Cause.message : ScanError.Cause → String
  | unexpected c => "Unexpected character " ++ quoted (String.ofList [c])
  | tooLong length limit =>
    "Source is " ++ Integer.text length ++ " characters, limit is " ++
      String.ofList limit.display
  | stated text => text

/-- An error with its place. -/
structure ScanError where
  /-- What is wrong. -/
  cause : ScanError.Cause
  /-- Where, if there is one place. -/
  offset : Option Int
  /-- The file of the source, if it is known. -/
  sourceFile : Option String
deriving Repr, Inhabited

namespace ScanError

/-- What is wrong, without the place. -/
def detail (error : ScanError) : String := error.cause.message

/-- The parts of a place, each with a colon after it.  An empty file name is no part. -/
def placeParts (sourceFile : Option String) (offset : Option Int) : List Char :=
  (match sourceFile with
    | none => []
    | some file => if file.isEmpty then [] else file.toList ++ [':']) ++
  (match offset with
    | none => []
    | some offset => Integer.digits offset ++ [':'])

/-- The place in words: its parts without the colons at the end, and a space.  If there are no
parts there is nothing at all. -/
def location (sourceFile : Option String) (offset : Option Int) : List Char :=
  match placeParts sourceFile offset with
  | [] => []
  | parts => (parts.reverse.dropWhile (· == ':')).reverse ++ [' ']

/-- The error in words, with its place in front. -/
def message (error : ScanError) : String :=
  String.ofList (location error.sourceFile error.offset) ++ error.detail

end ScanError

/-- All that can end a scan early. -/
inductive Failure
  /-- The source is at fault. -/
  | source (error : ScanError)
  /-- The limit is no number but of the named sort. -/
  | incomparableLimit (typeName : String)
deriving Repr, Inhabited

/-- The failure in words. -/
def Failure.message : Failure → String
  | source error => error.message
  | incomparableLimit typeName =>
    "'>' not supported between instances of 'int' and " ++ quoted typeName

end TokenStream
