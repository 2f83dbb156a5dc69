/-!
# Sixteen-bit units

Escapes in serialized texts name units of sixteen bits.  A character up to U+FFFF is one unit;
one above is two, a high surrogate and a low one.  Surrogates that are not such a pair stand for
no character and are replaced by U+FFFD.

## Main definitions

* `Units.encode` — the units of a character.
* `Units.decode` — the characters of units in a row.
-/

namespace TokenStream.Units

/-- The first half of a pair. -/
def isHigh (unit : Nat) : Bool := 0xD800 ≤ unit && unit ≤ 0xDBFF

/-- The second half of a pair. -/
def isLow (unit : Nat) : Bool := 0xDC00 ≤ unit && unit ≤ 0xDFFF

/-- The units of a character. -/
def encode (c : Char) : List Nat :=
  if c.toNat < 0x10000 then [c.toNat]
  else
    [0xD800 + (c.toNat - 0x10000) / 0x400, 0xDC00 + (c.toNat - 0x10000) % 0x400]

/-- The code point of a pair. -/
def join (high low : Nat) : Nat := 0x10000 + (high - 0xD800) * 0x400 + (low - 0xDC00)

/-- The character with a code point. -/
def character (codePoint : Nat) : Char :=
  if codePoint.isValidChar then Char.ofNat codePoint else '\uFFFD'

/-- The characters of units in a row.  Numbers above sixteen bits are taken as code points. -/
def decode : List Nat → List Char
  | [] => []
  | [unit] => [character unit]
  | high :: low :: rest =>
    if isHigh high && isLow low then character (join high low) :: decode rest
    else character high :: decode (low :: rest)

end TokenStream.Units
