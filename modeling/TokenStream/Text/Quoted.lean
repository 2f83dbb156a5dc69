import TokenStream.Text.Hex
import TokenStream.Text.Printable

/-!
# Quoted texts

How a text is shown inside a message: in single quotes, unless it holds a single quote and no
double quote, then in double quotes.  Inside, a backslash and the quote are escaped, the three
common controls have a letter each, and every other character without a visible form is shown
by its code point in two, four or eight hexadecimal digits.

## Main definitions

* `Quoted.quoteFor` — the quote chosen for a text.
* `Quoted.escape` — one character as it stands between the quotes.
* `quoted` — a text with its quotes.
-/

namespace TokenStream

namespace Quoted

/-- The quote to put around a text. -/
def quoteFor (cs : List Char) : Char :=
  if cs.contains '\x27' && !cs.contains '\x22' then '\x22' else '\x27'

/-- A character as it stands between two of the given quotes. -/
def escape (quote c : Char) : List Char :=
  if c = quote ∨ c = '\\' then ['\\', c]
  else if c = '\n' then ['\\', 'n']
  else if c = '\r' then ['\\', 'r']
  else if c = '\t' then ['\\', 't']
  else if isPrintable c then [c]
  else if c.toNat < 0x100 then '\\' :: 'x' :: Hex.digits 2 c.toNat
  else if c.toNat < 0x10000 then '\\' :: 'u' :: Hex.digits 4 c.toNat
  else '\\' :: 'U' :: Hex.digits 8 c.toNat

/-- A text between the quotes chosen for it. -/
def encode (cs : List Char) : List Char :=
  let quote := quoteFor cs
  quote :: cs.flatMap (escape quote) ++ [quote]

end Quoted

/-- A text as it is shown inside a message. -/
def quoted (text : String) : String := String.ofList (Quoted.encode text.toList)

end TokenStream
