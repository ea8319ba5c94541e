import ApiSchema.Proofs.Document.Formed
import ApiSchema.Proofs.TypeExpr.Nodes

/-!
# What an expansion gets to see

An expansion looks at the element of a type and at the properties of the instance that it refers to,
but not at the arguments in between. It gets to see an argument where a property hands on the
parameter: `Shows definitions t node` says that whoever looks at `t` comes to look at `node`. This
is about templates only. `Shows.presents` relates it to instances, where the nodes of a tree have
the words of other trees replaced in them: from a type with the tree `t` they lead to one whose
element is the node. So where all types that instances lead to are granted, nodes that are shown
resolve (`resolves_of_shows`).
-/

namespace ApiSchema

open Relation

/-! ## Nodes that resolve -/

namespace TypeExpr

/-- If the node is an object with arguments, its head names a template of as many distinct
parameters. -/
def Resolves (definitions : List Definition) (node : TypeExpr) : Prop :=
  ∀ use ∈ node.genericUse?,
    (templateNamed definitions use.1).map (·.distinctParameters.length) = some use.2.length

instance (definitions : List Definition) (node : TypeExpr) :
    Decidable (node.Resolves definitions) :=
  inferInstanceAs (Decidable (∀ use ∈ node.genericUse?, _))

variable {definitions : List Definition}

theorem resolves_object_iff {name head : Text} {arguments : List TypeExpr}
    (nonempty : arguments ≠ []) :
    (object name head arguments).Resolves definitions ↔
      ∃ source, templateNamed definitions head = some source ∧
        source.distinctParameters.length = arguments.length := by
  have use : (object name head arguments).genericUse? =
      some (head, arguments.map TypeExpr.name) :=
    genericUse?_eq_some_iff.2 ⟨name, arguments, rfl, nonempty, rfl⟩
  simp [Resolves, use]

end TypeExpr

/-! ## What is shown -/

section

variable (definitions : List Definition)

/-- Looking at `t` gets as far as `node`: to the element of `t`, or from there to an argument whose
parameter a property of the template hands on, and further from this argument. Properties that
apply a parameter do not count, since what they hand on depends on the argument. -/
inductive Shows : TypeExpr → TypeExpr → Prop
  | element (t : TypeExpr) : Shows t t.element
  | argument {t a node tree : TypeExpr} {name head parameter : Text} {arguments : List TypeExpr}
    {source : Definition} {p : Property} : t.element = .object name head arguments →
    templateNamed definitions head = some source →
    (source.distinctParameters.zip arguments).lookup parameter = some a → p ∈ source.properties →
    (∀ other ∈ source.parameters, ¬ Applied other p.type) → TypeExpr.parse p.type = .ok tree →
    Shows tree (.ofName parameter) → Shows a node → Shows t node

end

namespace Catalog

variable (c : Catalog)

/-- No plain definition has the name of an instance that `given` leads to, or of a type that asks
for one. -/
def Unhindered (given : Text) : Prop :=
  ∀ type name, ReflTransGen c.Spawns given type → displayName? type = some name →
    name ∉ c.plain ∧ type ∉ c.plain

/-- All that instances lead to from `given` is granted if it asks for an instance. -/
def Provides (given : Text) : Prop :=
  ∀ type name, ReflTransGen c.Spawns given type → displayName? type = some name → c.Grants type

/-- From `given` instances lead to a type whose element is that of `t`, but for the texts that the
nodes were read from. -/
def Presents (given : Text) (t : TypeExpr) : Prop :=
  ∃ type u, ReflTransGen c.Spawns given type ∧ TypeExpr.parse type = .ok u ∧
    u.element.stripNames = t.element.stripNames

variable {c} {given type name head : Text} {t u : TypeExpr} {arguments : List TypeExpr}

/-- Plain definitions with bare names are in nobody's way. -/
theorem unhindered_of_names (bare : ∀ name ∈ c.plain, genericUse? name = none) (given : Text) :
    c.Unhindered given := by
  intro type name _ shown
  constructor
  · intro taken
    have use := genericUse?_of_displayName? shown
    rw [bare name taken] at use
    rw [displayName?, ← use] at shown
    cases shown
  · intro taken
    rw [displayName?, bare type taken] at shown
    cases shown

/-- Where no plain name is in the way, an expansion follows every instance. -/
theorem Unhindered.calls (unhindered : c.Unhindered given)
    (chain : ReflTransGen c.Spawns given type) (shown : displayName? type = some name) :
    ReflTransGen c.Calls given type := by
  induction chain generalizing name with
  | refl => exact .refl
  | tail before last ih =>
    obtain ⟨e, made, p, listed, rfl⟩ := last
    have displayed := displayName?_of_instance? made
    have free := (unhindered _ _ before displayed).1
    have unnamed := (unhindered _ _ (before.tail ⟨e, made, p, listed, rfl⟩) shown).2
    exact (ih displayed).tail ⟨e, made, free, ⟨p, listed, rfl⟩, unnamed⟩

theorem Presents.congr (presents : c.Presents given t)
    (same : t.element.stripNames = u.element.stripNames) : c.Presents given u := by
  obtain ⟨type, v, chain, parsed, agrees⟩ := presents
  exact ⟨type, v, chain, parsed, agrees.trans same⟩

/-- A presented object is the element of some type, with arguments that are alike. -/
theorem Presents.exists_object (presents : c.Presents given t)
    (whole : t.element = .object name head arguments) (nonempty : arguments ≠ []) :
    ∃ type u name' trees, ReflTransGen c.Spawns given type ∧ TypeExpr.parse type = .ok u ∧
      u.element = .object name' head trees ∧ trees ≠ [] ∧
      trees.map TypeExpr.stripNames = arguments.map TypeExpr.stripNames := by
  obtain ⟨type, u, chain, parsed, same⟩ := presents
  rw [whole] at same
  obtain ⟨name', trees, element, alike⟩ := TypeExpr.exists_object_of_stripNames same
  refine ⟨type, u, name', trees, chain, parsed, element, ?_, alike⟩
  rintro rfl
  exact nonempty (List.map_eq_nil_iff.1 alike.symm)

end Catalog

section

variable {definitions : List Definition} {given : Text} {t node : TypeExpr}

/-- What is granted resolves. -/
theorem resolves_of_grants {type : Text}
    (granted : (Catalog.ofDefinitions definitions).Grants type)
    (parsed : TypeExpr.parse type = .ok t) : t.element.Resolves definitions := by
  intro ⟨head, arguments⟩ use
  have used : genericUse? type = some (head, arguments) :=
    genericUse?_eq_some_iff.2 ⟨t, parsed, use⟩
  obtain ⟨e, made⟩ := granted.served _ (displayName?_eq_some_iff.2 ⟨_, _, used, rfl⟩)
  obtain ⟨source, trees, last, -, used', -, arity, -⟩ := exists_trees_of_instance? made
  rw [used] at used'
  cases used'
  simp [last, arity]

/-- With a presented object the properties of its template are presented, with trees like the
arguments in the places of the parameters. -/
theorem Catalog.Presents.property {name head : Text} {arguments : List TypeExpr}
    {source : Definition} (provides : (ofDefinitions definitions).Provides given)
    (presents : (ofDefinitions definitions).Presents given t)
    (whole : t.element = .object name head arguments) (nonempty : arguments ≠ [])
    (last : templateNamed definitions head = some source) :
    ∃ trees : List TypeExpr,
      trees.map TypeExpr.stripNames = arguments.map TypeExpr.stripNames ∧
      (∀ w a, (source.distinctParameters.zip trees).lookup w = some a →
        isIdentifier w = true ∧ Derives a.name a) ∧
      ∀ p ∈ source.properties, (∀ other ∈ source.parameters, ¬ Applied other p.type) →
        ∀ tree, TypeExpr.parse p.type = .ok tree →
          (ofDefinitions definitions).Presents given
            (tree.substitute fun w => (source.distinctParameters.zip trees).lookup w) := by
  obtain ⟨type, u, name', trees, chain, parsed, element, filled, alike⟩ :=
    presents.exists_object whole nonempty
  obtain ⟨inner, derives⟩ := (parse_eq_ok_iff.1 parsed).element
  rw [element] at derives
  obtain ⟨-, -, derived⟩ := derives.of_object filled
  have use := genericUse?_of_parse parsed element filled
  have displayed := displayName?_eq_some_iff.2 ⟨_, _, use, rfl⟩
  obtain ⟨e, made⟩ := (provides type _ chain displayed).served _ displayed
  -- the instance is made from the same template with the same trees
  obtain ⟨other, others, last', names, use', derivedOthers, arity, rfl⟩ :=
    exists_trees_of_instance? made
  obtain ⟨rfl, listed⟩ := Prod.mk.inj (Option.some.inj (use.symm.trans use'))
  obtain rfl := eq_of_names derived derivedOthers listed
  obtain rfl := Option.some.inj (last.symm.trans last')
  refine ⟨trees, alike, fun w a found => ?_, fun p member unapplied tree read => ?_⟩
  · obtain ⟨parameter, argument⟩ := mem_of_lookup_zip found
    exact ⟨names w (List.mem_eraseDups.1 parameter), derived a argument⟩
  · obtain ⟨result, written, agrees⟩ :=
      derives_filledType names derived arity (parse_eq_ok_iff.1 read) unapplied
    refine ⟨_, result, chain.tail ⟨_, made, _, List.mem_map.2 ⟨p, member, rfl⟩, rfl⟩,
      parse_of_derives written, ?_⟩
    rw [← TypeExpr.element_stripNames, agrees, TypeExpr.element_stripNames]

/-- What a presented tree shows is presented. -/
theorem Shows.presents (provides : (Catalog.ofDefinitions definitions).Provides given)
    (shown : Shows definitions t node) {lookup : Text → Option TypeExpr}
    (proper : ∀ w a, lookup w = some a → isIdentifier w = true ∧ Derives a.name a) {text : Text}
    (derives : Derives text t)
    (presents : (Catalog.ofDefinitions definitions).Presents given (t.substitute lookup)) :
    (Catalog.ofDefinitions definitions).Presents given (node.substitute lookup) := by
  induction shown generalizing lookup text with
  | element t => exact presents.congr (by rw [derives.element_substitute proper])
  | @argument t a node tree name head parameter arguments source p whole last paired member
      unapplied read _ _ ihProperty ihArgument =>
    obtain ⟨inner, derivesElement⟩ := derives.element
    rw [whole] at derivesElement
    have argument := (mem_of_lookup_zip paired).2
    have nonempty := List.ne_nil_of_mem argument
    obtain ⟨-, -, derived⟩ := derivesElement.of_object nonempty
    have unknown : lookup name = none :=
      lookup_eq_none_of_mem proper (derivesElement.mem_name_of_object nonempty) (by decide)
    have element : (t.substitute lookup).element =
        .object name head (arguments.map (TypeExpr.substitute lookup)) := by
      rw [← derives.element_substitute proper, whole, TypeExpr.substitute, unknown]
      rfl
    obtain ⟨trees, alike, properTrees, properties⟩ :=
      presents.property provides element (by simpa using nonempty) last
    -- the tree that stands for the parameter is the argument with its own words replaced
    have value : ∃ b, (source.distinctParameters.zip trees).lookup parameter = some b ∧
        b.stripNames = (a.substitute lookup).stripNames := by
      have images := congrArg
        (fun values => (source.distinctParameters.zip values).lookup parameter) alike
      simp only [List.map_map, lookup_zip_map, paired, Option.map_some] at images
      exact Option.map_eq_some_iff.1 images
    obtain ⟨b, found, same⟩ := value
    have handed := ihProperty properTrees (parse_eq_ok_iff.1 read)
      (properties p member unapplied tree read)
    rw [TypeExpr.substitute_ofName, found, Option.getD_some] at handed
    refine ihArgument proper (derived a argument) (handed.congr ?_)
    rw [← TypeExpr.element_stripNames, same, TypeExpr.element_stripNames]

/-- Where all is granted that instances lead to, what the tree of a type shows resolves. -/
theorem resolves_of_shows (provides : (Catalog.ofDefinitions definitions).Provides given)
    (parsed : TypeExpr.parse given = .ok t) (shown : Shows definitions t node) :
    node.Resolves definitions := by
  have start : (Catalog.ofDefinitions definitions).Presents given (t.substitute fun _ => none) :=
    ⟨given, t, .refl, parsed, by rw [TypeExpr.substitute_none]⟩
  have presented := shown.presents provides (by simp) (parse_eq_ok_iff.1 parsed) start
  rw [TypeExpr.substitute_none] at presented
  intro ⟨head, names⟩ asked
  obtain ⟨name, trees, rfl, nonempty, -⟩ := TypeExpr.genericUse?_eq_some_iff.1 asked
  obtain ⟨type, u, name', others, chain, read, element, filled, alike⟩ :=
    presented.exists_object rfl nonempty
  have displayed := displayName?_eq_some_iff.2
    ⟨_, _, genericUse?_of_parse read element filled, rfl⟩
  have resolves := resolves_of_grants (provides type _ chain displayed) read
  have count := congrArg List.length alike
  rw [List.length_map, List.length_map] at count
  rw [element, TypeExpr.resolves_object_iff filled, count] at resolves
  exact (TypeExpr.resolves_object_iff nonempty).2 resolves _ asked

end

end ApiSchema
