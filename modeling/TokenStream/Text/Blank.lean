import TokenStream.Text.CharSet

/-!
# Blank characters

What separates the lexemes of a source without being part of one.  The four information
separators, U+001C to U+001F, are spaces by their Unicode properties, but a source has no
business holding them: they are not blank.

## Main definitions

* `isSpace` — the characters with the properties of a space.
* `isSeparator` — the four information separators.
* `isBlank` — what a scan passes over in silence.
* `isBlankText` — the same question asked of a text.
-/

namespace TokenStream

/-- The characters that Unicode 14.0 gives the properties of a space. -/
def spaces : CharSet where
  ranges := [
    (0x0009, 0x000D), (0x001C, 0x0020), (0x0085, 0x0085), (0x00A0, 0x00A0), (0x1680, 0x1680),
    (0x2000, 0x200A), (0x2028, 0x2029), (0x202F, 0x202F), (0x205F, 0x205F), (0x3000, 0x3000)]

/-- A character with the properties of a space. -/
def isSpace (c : Char) : Bool := spaces.contains c

/-- One of the information separators: of files, groups, records or units. -/
def isSeparator (c : Char) : Bool := 0x1C ≤ c.toNat && c.toNat ≤ 0x1F

/-- A character that a scan passes over: a space that is not an information separator. -/
def isBlank (c : Char) : Bool := isSpace c && !isSeparator c

/-- Whether a text is blank: it is not empty, all of it is spaces, and it is not one
information separator standing alone.  Separators next to other spaces do no harm. -/
def isBlankText (text : String) : Bool :=
  match text.toList with
  | [] => false
  | [c] => isBlank c
  | cs => cs.all isSpace

end TokenStream
