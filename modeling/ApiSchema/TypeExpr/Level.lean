import ApiSchema.Text.Blank
import ApiSchema.TypeError
import ApiSchema.TypeExpr.Basic

/-!
One level of a type expression: what its outermost form is, before its parts are looked into.

The `[]` at the end is the outermost form, then whichever of `#` and `<` stands first, and else
the text is a bare name. `Level.ofText` decides; `splitArguments` cuts the inside of an argument
list at the commas that stand outside of inner brackets.

Main statements: the parts of a level are shorter than its text (`length_of_array`,
`length_of_object`).
-/

namespace ApiSchema

/-- The characters of names. -/
def isIdentifierChar (c : Char) : Bool :=
  c.isAlphanum || c == '_'

/-- True of a name: one or more ASCII letters, digits and underscores. -/
def isIdentifier (text : Text) : Bool :=
  !text.isEmpty && text.all isIdentifierChar

/-- True of a format: any number of ASCII letters, digits, underscores and hyphens. -/
def isFormat (text : Text) : Bool :=
  text.all fun c => isIdentifierChar c || c == '-'

/-! ## Argument lists -/

/-- The surplus of `<` over `>` after one more character. -/
def bracketDepth (depth : Int) (c : Char) : Int :=
  if c = '<' then depth + 1 else if c = '>' then depth - 1 else depth

/-- Puts a character in front of the first piece. -/
def consFirst (c : Char) : List Text → List Text
  | [] => [[c]]
  | piece :: pieces => (c :: piece) :: pieces

/-- The pieces between the commas that stand where the surplus of `<` over `>` is zero; nothing
if the surplus is not zero at the end. -/
def cutAtCommas (depth : Int) : Text → Option (List Text)
  | [] => if depth = 0 then some [[]] else none
  | c :: rest =>
    if c = ',' ∧ depth = 0 then
      (cutAtCommas depth rest).map ([] :: ·)
    else
      (cutAtCommas (bracketDepth depth c) rest).map (consFirst c)

/-- The arguments inside a pair of brackets: trimmed, and without the blank ones. -/
def splitArguments (inside : Text) : Option (List Text) :=
  (cutAtCommas 0 inside).map fun pieces => (pieces.map Text.trim).filter (!·.isEmpty)

/-! ## Levels -/

/-- The outermost form of a type expression, with the texts of its parts. -/
inductive Level where
  | array (item : Text)
  | primitive (kind : Primitive) (format : Option Text)
  | object (head : Text) (arguments : List Text)
  deriving DecidableEq, Repr

namespace Level

/-- A name that stands alone. -/
def ofBare (text : Text) : Except Malformed Level :=
  if !isIdentifier text then .error .badIdentifier
  else match Primitive.ofKeyword? text with
    | some kind => .ok (.primitive kind none)
    | none => if text ∈ metaWords then .error .bareMeta else .ok (.object text [])

/-- A name with a format. The name counts as the primitive whose word it starts with. -/
def ofFormat (head format : Text) : Except Malformed Level :=
  if !isIdentifier head then .error .badIdentifier
  else if !isFormat format then .error .badFormat
  else match Primitive.all.find? (·.keyword.isPrefixOf head) with
    | some kind => .ok (.primitive kind (some format))
    | none =>
      if metaWords.any (·.isPrefixOf head) then .error .formatOnMeta else .error .formatOnObject

/-- A name with arguments, given what follows the opening bracket. -/
def ofGeneric (head rest : Text) : Except Malformed Level :=
  match Text.stripEnd? ['>'] rest with
  | none => .error .unbalanced
  | some inside =>
    if !isIdentifier head then .error .badIdentifier
    else if head ∈ reservedWords then .error .argumentsOnReserved
    else match splitArguments inside with
      | none => .error .unbalanced
      | some [] => .error .noArguments
      | some arguments => .ok (.object head arguments)

/-- The characters that end the name at the start of a level. -/
def endsHead (c : Char) : Bool :=
  c == '<' || c == '#'

/-- The outermost form of a text, or why it has none. Blanks are not skipped here. -/
def ofText (text : Text) : Except Malformed Level :=
  if text.isEmpty then .error .empty
  else match Text.stripEnd? ['[', ']'] text with
    | some item => if Text.endsBlank item then .error .blankBeforeArray else .ok (.array item)
    | none =>
      let head := text.takeWhile (!endsHead ·)
      match text.dropWhile (!endsHead ·) with
      | [] => ofBare text
      | '#' :: format => ofFormat head format
      | _ :: rest => ofGeneric head rest

end Level

/-! ## The parts of a level are shorter than its text -/

theorem Text.length_of_stripEnd? {ending text start : Text}
    (h : Text.stripEnd? ending text = some start) : start.length + ending.length = text.length := by
  unfold Text.stripEnd? at h
  split at h
  · rename_i hs
    have hl := (List.isSuffixOf_iff_suffix.1 hs).length_le
    cases h
    simp only [List.length_take]
    omega
  · cases h

theorem Text.length_trim_le (text : Text) : (Text.trim text).length ≤ text.length := by
  have drop_le : ∀ l : Text, (l.dropWhile isBlank).length ≤ l.length := fun l =>
    (List.dropWhile_suffix isBlank).length_le
  simp only [Text.trim, Text.trimEnd, List.length_reverse]
  exact Nat.le_trans (drop_le _) (by simpa using drop_le text)

theorem length_of_mem_cutAtCommas {depth : Int} {text : Text} {pieces : List Text}
    (h : cutAtCommas depth text = some pieces) : ∀ p ∈ pieces, p.length ≤ text.length := by
  induction text generalizing depth pieces with
  | nil =>
    unfold cutAtCommas at h
    split at h
    · cases h; simp
    · cases h
  | cons c rest ih =>
    unfold cutAtCommas at h
    split at h
    · obtain ⟨tail, ht, rfl⟩ := Option.map_eq_some_iff.1 h
      intro p hp
      rcases List.mem_cons.1 hp with rfl | hp
      · simp
      · exact Nat.le_trans (ih ht p hp) (by simp)
    · obtain ⟨tail, ht, rfl⟩ := Option.map_eq_some_iff.1 h
      intro p hp
      cases tail with
      | nil => simp_all [consFirst]
      | cons q qs =>
        rcases List.mem_cons.1 hp with rfl | hp
        · simpa using ih ht q (by simp)
        · exact Nat.le_trans (ih ht p (by simp [hp])) (by simp)

theorem length_of_mem_splitArguments {inside : Text} {arguments : List Text}
    (h : splitArguments inside = some arguments) : ∀ a ∈ arguments, a.length ≤ inside.length := by
  obtain ⟨pieces, hp, rfl⟩ := Option.map_eq_some_iff.1 h
  intro a ha
  obtain ⟨p, hmem, rfl⟩ := List.mem_map.1 (List.mem_filter.1 ha).1
  exact Nat.le_trans (Text.length_trim_le p) (length_of_mem_cutAtCommas hp p hmem)

namespace Level

theorem ofBare_object {text head : Text} {arguments : List Text}
    (h : ofBare text = .ok (.object head arguments)) : head = text ∧ arguments = [] := by
  unfold ofBare at h
  grind

theorem ofBare_ne_array {text item : Text} : ofBare text ≠ .ok (.array item) := by
  unfold ofBare
  grind

theorem ofFormat_eq_primitive {head format : Text} {level : Level}
    (h : ofFormat head format = .ok level) : ∃ kind, level = .primitive kind (some format) := by
  unfold ofFormat at h
  grind

theorem ofGeneric_eq_object {head rest : Text} {level : Level}
    (h : ofGeneric head rest = .ok level) :
    ∃ inside arguments, Text.stripEnd? ['>'] rest = some inside ∧
      splitArguments inside = some arguments ∧ level = .object head arguments := by
  unfold ofGeneric at h
  grind

theorem length_of_array {text item : Text} (h : ofText text = .ok (.array item)) :
    item.length < text.length := by
  unfold ofText at h
  split at h
  · cases h
  · split at h
    · rename_i hs
      have := Text.length_of_stripEnd? hs
      split at h <;> cases h
      simp only [List.length_cons, List.length_nil] at this
      omega
    · split at h
      · exact absurd h ofBare_ne_array
      · obtain ⟨_, h⟩ := ofFormat_eq_primitive h
        cases h
      · obtain ⟨_, _, _, _, h⟩ := ofGeneric_eq_object h
        cases h

theorem length_of_object {text head : Text} {arguments : List Text}
    (h : ofText text = .ok (.object head arguments)) : ∀ a ∈ arguments, a.length < text.length := by
  unfold ofText at h
  split at h
  · cases h
  · split at h
    · split at h <;> cases h
    · split at h
      · obtain ⟨_, rfl⟩ := ofBare_object h
        simp
      · obtain ⟨_, h⟩ := ofFormat_eq_primitive h
        cases h
      · rename_i c rest _ hdrop
        obtain ⟨inside, arguments', hs, hsplit, h⟩ := ofGeneric_eq_object h
        cases h
        intro a ha
        have h1 := length_of_mem_splitArguments hsplit a ha
        have h2 := Text.length_of_stripEnd? hs
        have h3 := (List.dropWhile_suffix (l := text) (!endsHead ·)).length_le
        rw [hdrop] at h3
        simp only [List.length_cons, List.length_nil] at h2 h3
        omega

end Level

end ApiSchema
