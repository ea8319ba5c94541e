/-!
Texts as lists of characters.

Every function of the library that looks into a text does so by recursion on this list, and
every law about one is proved by induction on it. The two general operations that need more
than the list library are here: `Text.stripEnd?` takes a fixed ending off, and `Text.replace`
writes one text for another, from left to right and without overlaps.
-/

namespace ApiSchema

/-- A text is the list of its characters. -/
abbrev Text := List Char

-- stated once, so that no definition that looks for a text carries the proof along
instance : LawfulBEq Text := inferInstance

namespace Text

/-- What stands before the ending, if the text has that ending. -/
def stripEnd? (ending text : Text) : Option Text :=
  if ending.isSuffixOf text then some (text.take (text.length - ending.length)) else none

/-- A text between two backticks, as messages show the name of a thing. -/
def ticked (text : Text) : Text :=
  '`' :: text ++ ['`']

/-- The parts in order with a separator between neighbours. -/
def join (separator : Text) (parts : List Text) : Text :=
  (parts.intersperse separator).flatten

/-- Writes `replacement` for every occurrence of `needle`. Occurrences are taken from the left
and do not overlap; an empty needle occurs nowhere. -/
def replace (needle replacement : Text) : Text → Text
  | [] => []
  | c :: rest =>
    if needle ≠ [] ∧ needle.isPrefixOf (c :: rest) then
      replacement ++ replace needle replacement (rest.drop (needle.length - 1))
    else
      c :: replace needle replacement rest
termination_by text => text.length
decreasing_by
  · simp only [List.length_drop, List.length_cons]; omega
  · simp

/-- The number of bytes of a text in UTF-8. -/
def byteCount (text : Text) : Nat :=
  (text.flatMap String.utf8EncodeChar).length

end Text

end ApiSchema
