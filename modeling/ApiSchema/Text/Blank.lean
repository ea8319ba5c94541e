import ApiSchema.Text.Basic

/-!
Blanks: the characters with the Unicode property White_Space, and trimming by them.
-/

namespace ApiSchema

/-- The characters with the Unicode property White_Space. -/
def isBlank (c : Char) : Bool :=
  let n := c.toNat
  (9 ≤ n && n ≤ 13) || n == 0x20 || n == 0x85 || n == 0xA0 || n == 0x1680
    || (0x2000 ≤ n && n ≤ 0x200A) || n == 0x2028 || n == 0x2029 || n == 0x202F || n == 0x205F
    || n == 0x3000

namespace Text

/-- The text without the blanks at its end. -/
def trimEnd (text : Text) : Text :=
  (text.reverse.dropWhile isBlank).reverse

/-- The text without the blanks at both ends. -/
def trim (text : Text) : Text :=
  trimEnd (text.dropWhile isBlank)

/-- True of a text that ends in a blank. -/
def endsBlank (text : Text) : Bool :=
  text.getLast?.any isBlank

end Text

end ApiSchema
