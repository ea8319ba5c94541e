import Mathlib.Logic.Relation
import ApiSchema.Proofs.Outcome
import ApiSchema.Proofs.Registration
import ApiSchema.Proofs.Template.Placeholders
import ApiSchema.Proofs.TypeExpr.Naming
import ApiSchema.Expander

/-!
# What an expansion asks for

A `Catalog` is what an expansion draws on: templates by name, and the names that are taken by plain
definitions. `Catalog.Needs owner name` says that a property of the instance `owner` refers to the
instance `name`, and `Catalog.Demanded types` is the least set of names that holds what `types`
refer to and all that its members need. None of these looks at a run.

`Expander.ofDefinitions_eq_ok` relates the state in which an expansion starts to the list of
definitions: the last template of a name counts, and the plain definitions stand in the registry.
-/

namespace ApiSchema

/-- Templates by their names, and the names of the plain definitions. -/
structure Catalog where
  template? : Text → Option Template
  plain : List Text
  named : ∀ {head : Text} {template : Template}, template? head = some template →
    template.name = head

namespace Catalog

variable (c : Catalog)

/-- The instance that a type refers to, if there is a template with as many parameters as the type
has arguments. -/
def instance? (type : Text) : Option ConcreteDefinition :=
  (genericUse? type).bind fun use =>
    (c.template? use.1).bind fun template =>
      if use.2.length = template.placeholders.length then some (template.instantiate use.2)
      else none

/-- One of the properties refers to the instance `name`. A property whose type is literally the
name of a plain definition refers to that definition. -/
def Asked (properties : List Property) (name : Text) : Prop :=
  ∃ p ∈ properties, p.type ∉ c.plain ∧ displayName? p.type = some name

/-- A property of the instance `owner` refers to the instance `name`. -/
def Needs (owner name : Text) : Prop :=
  owner ∉ c.plain ∧ ∃ d, c.instance? owner = some d ∧ c.Asked d.properties name

/-- The least set of names that holds what the types refer to and what its members need, without
the names of plain definitions. -/
inductive Demanded (types : List Text) : Text → Prop
  | given {type name : Text} : type ∈ types → displayName? type = some name → name ∉ c.plain →
    Demanded types name
  | needed {owner name : Text} : Demanded types owner → c.Needs owner name → name ∉ c.plain →
    Demanded types name

variable {c}

theorem instance?_eq_some_iff {type : Text} {d : ConcreteDefinition} :
    c.instance? type = some d ↔
      ∃ head arguments template, genericUse? type = some (head, arguments) ∧
        c.template? head = some template ∧ arguments.length = template.placeholders.length ∧
        template.instantiate arguments = d := by
  unfold instance?
  constructor
  · intro made
    obtain ⟨⟨head, arguments⟩, use, made⟩ := Option.bind_eq_some_iff.1 made
    obtain ⟨template, found, made⟩ := Option.bind_eq_some_iff.1 made
    split at made
    · rename_i arity
      exact ⟨head, arguments, template, use, found, arity, Option.some.inj made⟩
    · cases made
  · rintro ⟨head, arguments, template, use, found, arity, rfl⟩
    rw [use, Option.bind_some, found, Option.bind_some, if_pos arity]

theorem instance?_genericText {type head : Text} {arguments : List Text} {template : Template}
    (use : genericUse? type = some (head, arguments)) (found : c.template? head = some template)
    (arity : arguments.length = template.placeholders.length) :
    c.instance? (genericText head arguments) = some (template.instantiate arguments) :=
  instance?_eq_some_iff.2
    ⟨head, arguments, template, genericUse?_genericText use, found, arity, rfl⟩

theorem name_instantiate {head : Text} {arguments : List Text} {template : Template}
    (found : c.template? head = some template) :
    (template.instantiate arguments).name = genericText head arguments := by
  show template.instanceName arguments = genericText head arguments
  rw [Template.instanceName_eq, c.named found]

theorem displayName?_of_instance? {type : Text} {d : ConcreteDefinition}
    (made : c.instance? type = some d) : displayName? type = some d.name := by
  obtain ⟨head, arguments, template, use, found, -, rfl⟩ := instance?_eq_some_iff.1 made
  exact displayName?_eq_some_iff.2 ⟨head, arguments, use, name_instantiate found⟩

theorem needs_iff_asked {owner name : Text} {d : ConcreteDefinition} (free : owner ∉ c.plain)
    (made : c.instance? owner = some d) : c.Needs owner name ↔ c.Asked d.properties name := by
  constructor
  · intro ⟨_, e, found, asked⟩
    rw [made] at found
    cases found
    exact asked
  · exact fun asked => ⟨free, d, made, asked⟩

theorem Demanded.not_mem_plain {types : List Text} {name : Text}
    (demanded : c.Demanded types name) : name ∉ c.plain := by
  cases demanded with
  | given _ _ free => exact free
  | needed _ _ free => exact free

/-- What can be reached from what a type refers to is demanded. -/
theorem demanded_of_reach {types : List Text} {type root name : Text} (member : type ∈ types)
    (shown : displayName? type = some root) (reach : Relation.ReflTransGen c.Needs root name)
    (free : name ∉ c.plain) : c.Demanded types name := by
  induction reach with
  | refl => exact .given member shown free
  | tail _ need ih => exact .needed (ih need.1) need free

end Catalog

/-! ## The catalog of a list of definitions -/

/-- The template that counts for a name is the last definition of that name with parameters. -/
def templateNamed (definitions : List Definition) (name : Text) : Option Definition :=
  definitions.findRev? fun d => d.isTemplate && decide (d.name = name)

/-- The names of the definitions without parameters. -/
def plainNames (definitions : List Definition) : List Text :=
  (definitions.filter fun d => !d.isTemplate).map Definition.name

/-- The definitions without parameters, one for each name. -/
def plainDefinitions (definitions : List Definition) : List ConcreteDefinition :=
  Registry.lastOfEach ((definitions.filter fun d => !d.isTemplate).map Definition.toConcrete)

/-- The catalog that a list of definitions gives rise to. -/
def Catalog.ofDefinitions (definitions : List Definition) : Catalog where
  template? name := (templateNamed definitions name).bind fun d => (Template.prepare d).toOption
  plain := plainNames definitions
  named := by
    intro head template found
    obtain ⟨d, last, prepared⟩ := Option.bind_eq_some_iff.1 found
    cases outcome : Template.prepare d with
    | error e => rw [outcome] at prepared; cases prepared
    | ok t =>
      rw [outcome] at prepared
      cases prepared
      rw [templateNamed, List.findRev?_eq_find?_reverse] at last
      have named := List.find?_some last
      rw [(Template.prepare_eq_ok outcome).2]
      exact of_decide_eq_true (Bool.and_eq_true_iff.1 named).2

theorem mem_of_templateNamed {definitions : List Definition} {name : Text} {d : Definition}
    (last : templateNamed definitions name = some d) :
    d ∈ definitions ∧ d.isTemplate = true ∧ d.name = name := by
  rw [templateNamed, List.findRev?_eq_find?_reverse] at last
  have both := List.find?_some last
  obtain ⟨template, named⟩ := Bool.and_eq_true_iff.1 both
  exact ⟨List.mem_reverse.1 (List.mem_of_find?_eq_some last), template, of_decide_eq_true named⟩

theorem Catalog.template?_ofDefinitions {definitions : List Definition} {head : Text}
    {template : Template} :
    (Catalog.ofDefinitions definitions).template? head = some template ↔
      ∃ source, templateNamed definitions head = some source ∧
        Template.prepare source = .ok template := by
  show (templateNamed definitions head).bind (fun d => (Template.prepare d).toOption) = _ ↔ _
  simp only [Option.bind_eq_some_iff, toOption_eq_some_iff]

/-- An instance is made from the last template of its name, with trees for arguments. -/
theorem exists_trees_of_instance? {definitions : List Definition} {type : Text}
    {d : ConcreteDefinition}
    (made : (Catalog.ofDefinitions definitions).instance? type = some d) :
    ∃ (source : Definition) (trees : List TypeExpr),
      templateNamed definitions source.name = some source ∧
      (∀ parameter ∈ source.parameters, isIdentifier parameter = true) ∧
      genericUse? type = some (source.name, trees.map TypeExpr.name) ∧
      (∀ a ∈ trees, Derives a.name a) ∧ trees.length = source.distinctParameters.length ∧
      d = { name := genericText source.name (trees.map TypeExpr.name)
            description := source.description
            properties := source.properties.map fun p =>
              { p with type := source.filledType (trees.map TypeExpr.name) p.type } } := by
  obtain ⟨head, arguments, template, use, found, arity, rfl⟩ := Catalog.instance?_eq_some_iff.1 made
  have named := Catalog.named _ found
  obtain ⟨source, last, prepared⟩ := Catalog.template?_ofDefinitions.1 found
  obtain ⟨names, rfl⟩ := Template.prepare_eq_ok prepared
  obtain rfl : source.name = head := named
  obtain ⟨trees, -, rfl, -, -, derived⟩ := exists_trees_of_genericUse? use
  refine ⟨source, trees, last, names, use, derived, by simpa using arity, ?_⟩
  rw [Template.instantiate, List.map_map]
  rfl

namespace Expander

theorem add_eq_ok {x y : Expander} {d : Definition} (added : x.add d = .ok y) :
    (d.isTemplate = true ∧ ∃ template, Template.prepare d = .ok template ∧
        y = { x with templates := x.templates.insert d.name template }) ∨
      (d.isTemplate = false ∧ y = { x with registry := x.registry.set d.toConcrete }) := by
  unfold add at added
  split at added
  · rename_i template
    obtain ⟨t, prepared, same⟩ := bind_eq_ok_iff.1 added
    cases same
    exact Or.inl ⟨template, t, prepared, rfl⟩
  · rename_i plain
    cases added
    exact Or.inr ⟨by simpa using plain, rfl⟩

/-- What taking in definitions one after the other adds to a state. -/
theorem foldlM_add_eq_ok {definitions : List Definition} {x y : Expander}
    (added : definitions.foldlM add x = .ok y) :
    (∀ name, (∃ d template, templateNamed definitions name = some d ∧
          Template.prepare d = .ok template ∧ y.templates.get? name = some template) ∨
        (templateNamed definitions name = none ∧
          y.templates.get? name = x.templates.get? name)) ∧
      y.registry = ((definitions.filter fun d => !d.isTemplate).map Definition.toConcrete).foldl
        Registry.set x.registry ∧
      y.inProgress = x.inProgress := by
  induction definitions generalizing x with
  | nil =>
    cases added
    exact ⟨fun name => Or.inr ⟨rfl, rfl⟩, rfl, rfl⟩
  | cons d definitions ih =>
    obtain ⟨m, first, rest⟩ := foldlM_cons_eq_ok_iff.1 added
    obtain ⟨templates, registry, inProgress⟩ := ih rest
    rcases add_eq_ok first with ⟨hasParameters, template, prepared, rfl⟩ | ⟨plain, rfl⟩
    · refine ⟨fun name => ?_, by simpa [hasParameters] using registry, inProgress⟩
      rcases templates name with ⟨e, t, last, ready, found⟩ | ⟨absent, kept⟩
      · refine Or.inl ⟨e, t, ?_, ready, found⟩
        rw [templateNamed, List.findRev?, ← templateNamed, last]
      · rw [templateNamed, List.findRev?, ← templateNamed, absent, kept, Dict.get?_insert]
        by_cases same : d.name = name
        · exact Or.inl ⟨d, template, by simp [hasParameters, same], prepared, by simp [same]⟩
        · exact Or.inr ⟨by simp [same], by simp [Ne.symm same]⟩
    · refine ⟨fun name => ?_, by simpa [plain] using registry, inProgress⟩
      rcases templates name with ⟨e, t, last, ready, found⟩ | ⟨absent, kept⟩
      · refine Or.inl ⟨e, t, ?_, ready, found⟩
        rw [templateNamed, List.findRev?, ← templateNamed, last]
      · refine Or.inr ⟨?_, kept⟩
        rw [templateNamed, List.findRev?, ← templateNamed, absent]
        simp [plain]

/-- The state in which an expansion starts. -/
theorem ofDefinitions_eq_ok {definitions : List Definition} {x : Expander}
    (started : ofDefinitions definitions = .ok x) :
    (∀ name, x.templates.get? name = (Catalog.ofDefinitions definitions).template? name) ∧
      (∀ name, name ∈ x.registry.keys ↔ name ∈ plainNames definitions) ∧
      x.registry.definitions = plainDefinitions definitions ∧
      x.registry.Keyed ∧ x.inProgress = [] := by
  obtain ⟨templates, registry, inProgress⟩ := foldlM_add_eq_ok started
  refine ⟨fun name => ?_, fun name => ?_, ?_, ?_, inProgress⟩
  · show x.templates.get? name =
      (templateNamed definitions name).bind fun d => (Template.prepare d).toOption
    rcases templates name with ⟨d, template, last, prepared, found⟩ | ⟨absent, kept⟩
    · rw [last, found, Option.bind_some, prepared]
      rfl
    · rw [absent, kept]
      rfl
  · rw [registry, Registry.keys_foldl_set, List.mem_eraseDups, List.map_map]
    rfl
  · rw [registry]
    exact Registry.definitions_foldl_set _
  · rw [registry]
    exact Registry.keyed_foldl_set _

end Expander

end ApiSchema
