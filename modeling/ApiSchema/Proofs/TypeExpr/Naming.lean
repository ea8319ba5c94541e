import ApiSchema.Proofs.TypeExpr.Parsing
import ApiSchema.Template

/-!
# Names of generic uses

A type whose element is an object with arguments uses a generic definition: `genericUse?` gives the
head and the names of the arguments, and `displayName?` puts them together as in `Page<Item>`. The
display name is a type expression in its own right and uses the same head with the same arguments
(`genericUse?_genericText`), so it is its own display name.
-/

namespace ApiSchema

/-- The text of a head with arguments. -/
def genericText (head : Text) (arguments : List Text) : Text :=
  head ++ '<' :: Text.join [',', ' '] arguments ++ ['>']

/-- The head and the names of the arguments, if there are any. -/
def TypeExpr.genericUse? (t : TypeExpr) : Option (Text × List Text) :=
  match t.asObject? with
  | some (head, argument :: arguments) =>
    some (head, (argument :: arguments).map TypeExpr.name)
  | _ => none

/-- The generic use that the element of a type consists of, if the type parses. -/
def genericUse? (type : Text) : Option (Text × List Text) :=
  match TypeExpr.parse type with
  | .ok t => t.element.genericUse?
  | .error _ => none

/-- The name of the instance that a type refers to. -/
def displayName? (type : Text) : Option Text :=
  (genericUse? type).map fun use => genericText use.1 use.2

theorem Template.instanceName_eq (template : Template) (arguments : List Text) :
    template.instanceName arguments = genericText template.name arguments := rfl

/-! ## Nodes of a derivation -/

theorem TypeExpr.genericUse?_eq_some_iff {t : TypeExpr} {head : Text} {arguments : List Text} :
    t.genericUse? = some (head, arguments) ↔
      ∃ name trees, t = .object name head trees ∧ trees ≠ [] ∧
        arguments = trees.map TypeExpr.name := by
  cases t with
  | primitive | array => simp [TypeExpr.genericUse?, TypeExpr.asObject?]
  | object name other trees =>
    cases trees with
    | nil => simp [TypeExpr.genericUse?, TypeExpr.asObject?]
    | cons a trees =>
      simp only [TypeExpr.genericUse?, TypeExpr.asObject?, Option.some.injEq, Prod.mk.injEq,
        TypeExpr.object.injEq]
      constructor
      · rintro ⟨rfl, rfl⟩
        exact ⟨name, a :: trees, ⟨rfl, rfl, rfl⟩, by simp, rfl⟩
      · rintro ⟨_, _, ⟨_, rfl, rfl⟩, _, rfl⟩
        exact ⟨rfl, rfl⟩

theorem TypeExpr.element_ofName (word : Text) : (ofName word).element = ofName word := by
  unfold ofName
  split <;> rfl

theorem Derives.element {text : Text} {t : TypeExpr} (derives : Derives text t) :
    ∃ inner, Derives inner t.element := by
  induction derives with
  | @name word name notMeta =>
    rw [TypeExpr.element_ofName]
    exact ⟨word, .name name notMeta⟩
  | format name start formed => exact ⟨_, .format name start formed⟩
  | generic name free padded cores nonempty => exact ⟨_, .generic name free padded cores nonempty⟩
  | array _ ih => exact ih

/-- An object with arguments is derived by the rule for argument lists. -/
theorem Derives.exists_segments_of_object {text name head : Text} {trees : List TypeExpr}
    (derives : Derives text (.object name head trees)) (nonempty : trees ≠ []) :
    ∃ segments : List Segment, isIdentifier head = true ∧ head ∉ reservedWords ∧
      (∀ s ∈ segments, s.Holds Derives) ∧ trees = segments.filterMap Segment.tree? ∧
      name = head ++ '<' :: Text.join [','] (segments.map Segment.text) ++ ['>'] := by
  generalize whole : TypeExpr.object name head trees = t at derives
  cases derives with
  | @name word =>
    unfold TypeExpr.ofName at whole
    split at whole
    · cases whole
    · cases whole
      exact absurd rfl nonempty
  | format => cases whole
  | array => cases whole
  | @generic _ segments proper free padded cores _ =>
    cases whole
    exact ⟨segments, proper, free, Segment.forall_holds_iff.2 ⟨padded, cores⟩, rfl, rfl⟩

/-- An object with arguments has a proper name for a head, and each argument is derived. -/
theorem Derives.of_object {text name head : Text} {trees : List TypeExpr}
    (derives : Derives text (.object name head trees)) (nonempty : trees ≠ []) :
    isIdentifier head = true ∧ head ∉ reservedWords ∧ ∀ a ∈ trees, Derives a.name a := by
  obtain ⟨segments, proper, free, holds, rfl, -⟩ := derives.exists_segments_of_object nonempty
  refine ⟨proper, free, fun a member => ?_⟩
  obtain ⟨segment, listed, found⟩ := List.mem_filterMap.1 member
  have own := holds segment listed
  cases segment with
  | blank => cases found
  | argument before core after tree =>
    cases found
    have derived := own.2.2
    rwa [derived.name_eq]

theorem Derives.mem_name_of_object {text name head : Text} {trees : List TypeExpr}
    (derives : Derives text (.object name head trees)) (nonempty : trees ≠ []) : '<' ∈ name := by
  obtain ⟨segments, -, -, -, -, rfl⟩ := derives.exists_segments_of_object nonempty
  simp

/-- Derived trees are known by their names. -/
theorem eq_of_names {trees others : List TypeExpr} (derived : ∀ a ∈ trees, Derives a.name a)
    (derivedOthers : ∀ a ∈ others, Derives a.name a)
    (same : trees.map TypeExpr.name = others.map TypeExpr.name) : trees = others := by
  induction trees generalizing others with
  | nil => exact (List.map_eq_nil_iff.1 same.symm).symm
  | cons a trees ih =>
    cases others with
    | nil => cases same
    | cons b others =>
      obtain ⟨first, rest⟩ := List.cons.inj same
      obtain ⟨ha, derived⟩ := List.forall_mem_cons.1 derived
      obtain ⟨hb, derivedOthers⟩ := List.forall_mem_cons.1 derivedOthers
      rw [ih derived derivedOthers rest, ha.unique (first ▸ hb)]

/-! ## The display name is a type -/

/-- Derived arguments are the segments of a list. -/
theorem exists_segments_of_trees {trees : List TypeExpr}
    (derived : ∀ a ∈ trees, Derives a.name a) :
    ∃ segments : List Segment, segments.map Segment.text = trees.map TypeExpr.name ∧
      segments.filterMap Segment.tree? = trees ∧ ∀ s ∈ segments, s.Holds Derives := by
  refine ⟨trees.map fun a => .argument [] a.name [] a, ?_, ?_, ?_⟩
  · simp [Segment.text, Function.comp_def]
  · simp [List.filterMap_map, Segment.tree?, Function.comp_def]
  · intro s member
    obtain ⟨a, listed, rfl⟩ := List.mem_map.1 member
    exact ⟨Text.isBlank_nil, Text.isBlank_nil, derived a listed⟩

/-- Derived arguments behind a proper head make a derived text. -/
theorem derives_genericText {head : Text} {trees : List TypeExpr}
    (name : isIdentifier head = true) (free : head ∉ reservedWords) (nonempty : trees ≠ [])
    (derived : ∀ a ∈ trees, Derives a.name a) :
    Derives (genericText head (trees.map TypeExpr.name))
      (.object (genericText head (trees.map TypeExpr.name)) head trees) := by
  obtain ⟨segments, texts, kept, holds⟩ := exists_segments_of_trees derived
  have whole := Derives.generic_spaced name free holds (by rwa [kept])
  rwa [texts, kept] at whole

theorem genericUse?_eq_some_iff {type head : Text} {arguments : List Text} :
    genericUse? type = some (head, arguments) ↔
      ∃ t, TypeExpr.parse type = .ok t ∧ t.element.genericUse? = some (head, arguments) := by
  unfold genericUse?
  cases TypeExpr.parse type with
  | error e => simp
  | ok t => simp

theorem genericUse?_eq_of_parse {type : Text} {t : TypeExpr}
    (parsed : TypeExpr.parse type = .ok t) : genericUse? type = t.element.genericUse? := by
  rw [genericUse?, parsed]

theorem genericUse?_of_parse {type name head : Text} {t : TypeExpr} {trees : List TypeExpr}
    (parsed : TypeExpr.parse type = .ok t) (element : t.element = .object name head trees)
    (nonempty : trees ≠ []) : genericUse? type = some (head, trees.map TypeExpr.name) :=
  genericUse?_eq_some_iff.2 ⟨t, parsed,
    TypeExpr.genericUse?_eq_some_iff.2 ⟨name, trees, element, nonempty, rfl⟩⟩

/-- What a type uses consists of derived arguments behind a proper head. -/
theorem exists_trees_of_genericUse? {type head : Text} {arguments : List Text}
    (use : genericUse? type = some (head, arguments)) :
    ∃ trees : List TypeExpr, trees ≠ [] ∧ arguments = trees.map TypeExpr.name ∧
      isIdentifier head = true ∧ head ∉ reservedWords ∧ ∀ a ∈ trees, Derives a.name a := by
  obtain ⟨t, parsed, inner⟩ := genericUse?_eq_some_iff.1 use
  obtain ⟨name, trees, same, nonempty, rfl⟩ := TypeExpr.genericUse?_eq_some_iff.1 inner
  obtain ⟨text, derives⟩ := (parse_eq_ok_iff.1 parsed).element
  rw [same] at derives
  obtain ⟨proper, free, derived⟩ := derives.of_object nonempty
  exact ⟨trees, nonempty, rfl, proper, free, derived⟩

/-- The display name of a use is a type that uses the same. -/
theorem genericUse?_genericText {type head : Text} {arguments : List Text}
    (use : genericUse? type = some (head, arguments)) :
    genericUse? (genericText head arguments) = some (head, arguments) := by
  obtain ⟨trees, nonempty, rfl, proper, free, derived⟩ := exists_trees_of_genericUse? use
  have parsed := parse_of_derives (derives_genericText proper free nonempty derived)
  exact genericUse?_of_parse parsed rfl nonempty

theorem displayName?_eq_some_iff {type name : Text} :
    displayName? type = some name ↔
      ∃ head arguments, genericUse? type = some (head, arguments) ∧
        name = genericText head arguments := by
  rw [displayName?, Option.map_eq_some_iff]
  constructor
  · rintro ⟨⟨head, arguments⟩, use, rfl⟩
    exact ⟨head, arguments, use, rfl⟩
  · rintro ⟨head, arguments, use, rfl⟩
    exact ⟨(head, arguments), use, rfl⟩

/-- A display name uses what the type uses that it is read off. -/
theorem genericUse?_of_displayName? {type name : Text} (shown : displayName? type = some name) :
    genericUse? name = genericUse? type := by
  obtain ⟨head, arguments, use, rfl⟩ := displayName?_eq_some_iff.1 shown
  rw [use]
  exact genericUse?_genericText use

end ApiSchema
