import ApiSchema.Text.Basic

/-!
Coloured text for terminals.

A style is a sequence in front of a text and a reset behind it. Where the text holds a reset of
its own the style is set again.
-/

namespace ApiSchema

/-- The styles that are used. -/
inductive Style where
  | green
  | red
  | dimmed
  | boldRed
  deriving DecidableEq, Repr

namespace Style

/-- The codes of a style. -/
def codes : Style → Text
  | green => "32".toList
  | red => "31".toList
  | dimmed => "2".toList
  | boldRed => "1;31".toList

/-- The sequence that sets codes. -/
def sequence (codes : Text) : Text :=
  '\x1b' :: '[' :: codes ++ ['m']

/-- The sequence that ends every style. -/
def reset : Text :=
  sequence ['0']

/-- A text in a style, if colours are on. -/
def paint (style : Style) (colors : Bool) (text : Text) : Text :=
  if colors then
    let start := sequence style.codes
    start ++ Text.replace reset (reset ++ start) text ++ reset
  else text

end Style

end ApiSchema
