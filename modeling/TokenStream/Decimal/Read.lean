import TokenStream.Decimal.Layout
import TokenStream.Decimal.Numeral

/-!
# Reading the written form of a float

## Main definitions

* `FloatStyle.read?` — the float that a text in a given form stands for.
-/

namespace TokenStream.FloatStyle

/-- What is not a number, an infinity, or a numeral that fills the text. -/
def read? (style : FloatStyle) (text : List Char) : Option Float :=
  if text = style.nan.toList then some (0.0 / 0.0)
  else if text = style.infinity.toList then some (1.0 / 0.0)
  else if text = withSign true style.infinity.toList then some (-1.0 / 0.0)
  else
    match Numeral.read? text with
    | some (numeral, []) => some numeral.toFloat
    | _ => none

end TokenStream.FloatStyle
