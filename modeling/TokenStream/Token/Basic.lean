import TokenStream.Text.Integer
import TokenStream.Text.Quoted
import TokenStream.Token.Kind

/-!
# Tokens

A token says what a piece of a source is, how it reads, and where it starts.

## Main definitions

* `Token` — kind, text and offset.
* `Token.stop` — the offset just after the text.
* `Token.describe` — the token on one line, a long text cut short.
-/

namespace TokenStream

/-- A token of a source. -/
structure Token where
  /-- What sort of thing it is. -/
  kind : Token.Kind
  /-- The lexeme as it stands in the source; a line feed for every line ending. -/
  text : String
  /-- How many characters of the source stand before it. -/
  offset : Int
deriving DecidableEq, Repr, Inhabited

namespace Token

/-- The offset just after the text.  A line ending counts as one character here, since its text
is one line feed, even where the source has a carriage return and a line feed. -/
def stop (token : Token) : Int := token.offset + token.text.length

/-- Whether the token is a reserved word. -/
def isKeyword (token : Token) : Bool := token.kind == .keyword

/-- The text that a description shows: texts of more than twenty characters are cut after
seventeen and marked with three points. -/
def excerpt (text : String) : String :=
  if text.length > 20 then String.ofList (text.toList.take 17) ++ "..." else text

/-- The token on one line. -/
def describe (token : Token) : String :=
  "Token(" ++ token.kind.name ++ ", " ++ quoted (excerpt token.text) ++ ", @" ++
    Integer.text token.offset ++ ")"

/-- The same token, further along by a number of characters. -/
def shift (distance : Int) (token : Token) : Token :=
  { token with offset := token.offset + distance }

end Token

end TokenStream
