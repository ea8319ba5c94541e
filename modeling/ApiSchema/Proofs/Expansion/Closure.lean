import ApiSchema.Proofs.Expansion.Run

/-!
# The instances of an expansion

`Expansion c types plain instances` collects what is true of the output of a successful expansion,
the plain definitions `plain` followed by the instances `instances`: nothing is missing, nothing is
there without need, and each instance stands where it may. `exists_expansion` reads it off the run.
The names of the instances are then the least set that `types` call for.
-/

namespace ApiSchema

open Relation

/-- What a successful expansion puts out. -/
structure Expansion (c : Catalog) (types : List Text) (plain instances : List ConcreteDefinition) :
    Prop where
  distinct : ((plain ++ instances).map ConcreteDefinition.name).Nodup
  taken : ∀ name, name ∈ plain.map ConcreteDefinition.name ↔ name ∈ c.plain
  settled : ∀ type ∈ types, ∀ name, displayName? type = some name →
    name ∈ (plain ++ instances).map ConcreteDefinition.name
  closed : ∀ d ∈ instances, ∀ name, c.Needs d.name name →
    name ∈ (plain ++ instances).map ConcreteDefinition.name
  made : ∀ d ∈ instances, c.instance? d.name = some d
  wanted : ∀ d ∈ instances, c.Demanded types d.name
  ordered : ∀ d ∈ instances, ∃ before after, instances = before ++ d :: after ∧
    ∀ name, c.Needs d.name name → name ∈ (plain ++ before).map ConcreteDefinition.name ∨
      name = d.name ∨ TransGen c.Needs name d.name

variable {c : Catalog} {types : List Text} {plain instances : List ConcreteDefinition}

/-! ## Reading it off the run -/

/-- What has grown is a list of new definitions, each of which fits behind those before it. -/
theorem Grows.exists_new {roots : Text → Prop} {pending : List Text} {r s : Registry}
    (grows : Grows c roots pending r s) :
    ∃ new : List ConcreteDefinition, s.definitions = r.definitions ++ new ∧
      s.keys = r.keys ++ new.map ConcreteDefinition.name ∧
      ∀ d ∈ new, ∃ before after, new = before ++ d :: after ∧
        ∃ m : Registry, m.keys = r.keys ++ before.map ConcreteDefinition.name ∧
          Fits c roots pending m d := by
  induction grows with
  | refl => exact ⟨[], by simp, by simp, by simp⟩
  | @tail m s _ step ih =>
    obtain ⟨new, definitions, keys, placed⟩ := ih
    obtain ⟨d, fits, rfl⟩ := step
    refine ⟨new ++ [d], ?_, ?_, fun e member => ?_⟩
    · rw [Registry.definitions, Dict.values, Dict.entries_insert_of_not_mem fits.fresh,
        List.map_append, ← List.append_assoc, ← definitions]
      rfl
    · rw [keys_insert_of_fresh fits.fresh, keys, List.map_append, List.append_assoc]
      rfl
    · rcases List.mem_append.1 member with member | member
      · obtain ⟨before, after, rfl, place⟩ := placed e member
        exact ⟨before, after ++ [d], by simp, place⟩
      · rw [List.mem_singleton.1 member]
        exact ⟨new, [], rfl, m, keys, fits⟩

theorem exists_expansion {depth : Nat} {definitions : List Definition} {types : List Text}
    {out : List ConcreteDefinition} (expanded : expandAll depth definitions types = .ok out) :
    ∃ instances, out = plainDefinitions definitions ++ instances ∧
      Expansion (Catalog.ofDefinitions definitions) types (plainDefinitions definitions)
        instances := by
  obtain ⟨x, started, rest⟩ := bind_eq_ok_iff.1 expanded
  obtain ⟨y, extracted, same⟩ := bind_eq_ok_iff.1 rest
  obtain ⟨templates, names, plain, keyed, idle⟩ :=
    Expander.ofDefinitions_eq_ok (mapError_eq_ok_iff.1 started)
  have follows : Follows (Catalog.ofDefinitions definitions) x :=
    ⟨templates, fun name => (names name).2, fun name member => Or.inl ((names name).1 member)⟩
  have serves := serves_of_extractAll follows extracted
  obtain ⟨instances, grown, keys, placed⟩ := serves.grows.exists_new
  rw [plain] at grown
  rw [keyed.keys_eq, plain, ← List.map_append] at keys
  have start_names : x.registry.keys =
      (plainDefinitions definitions).map ConcreteDefinition.name := by
    rw [keyed.keys_eq, plain]
  -- nothing is in progress when an expansion starts, so what is served is registered
  have reached : ∀ name, name ∈ y.registry.keys ∨ name ∈ x.inProgress →
      name ∈ (plainDefinitions definitions ++ instances).map ConcreteDefinition.name := by
    rintro name (known | pending)
    · rwa [keys] at known
    · rw [idle] at pending
      cases pending
  refine ⟨instances, ?_, ?_⟩
  · cases same
    exact grown
  · refine ⟨?_, ?_, ?_, ?_, ?_, ?_, ?_⟩
    · rw [← keys]
      exact y.registry.distinct
    · intro name
      rw [← start_names]
      exact names name
    · intro type member name shown
      exact reached name (serves.settled name ⟨type, member, shown⟩)
    · intro d member name need
      have listed : d.name ∈ y.registry.keys := by
        rw [keys]
        exact List.mem_map_of_mem (List.mem_append_right _ member)
      rcases serves.closed d.name listed with known | served
      · exact (need.1 ((names d.name).1 known)).elim
      · exact reached name (served name need)
    · intro d member
      obtain ⟨_, _, _, _, _, fits⟩ := placed d member
      exact fits.made
    · intro d member
      obtain ⟨_, _, _, m, before, fits⟩ := placed d member
      obtain ⟨root, ⟨type, asked, shown⟩, reach⟩ := fits.wanted
      refine Catalog.demanded_of_reach asked shown reach fun taken => fits.fresh ?_
      rw [before]
      exact List.mem_append_left _ ((names d.name).2 taken)
    · intro d member
      obtain ⟨before, after, split, m, keys_before, fits⟩ := placed d member
      refine ⟨before, after, split, fun name need => ?_⟩
      rcases fits.ordered name need with known | self | pending | back
      · rw [keys_before, start_names, ← List.map_append] at known
        exact Or.inl known
      · exact Or.inr (Or.inl self)
      · rw [idle] at pending
        cases pending
      · exact Or.inr (Or.inr back)

namespace Expansion

variable (expansion : Expansion c types plain instances)

include expansion

theorem name_not_mem_plain {d : ConcreteDefinition} (member : d ∈ instances) :
    d.name ∉ c.plain :=
  (expansion.wanted d member).not_mem_plain

/-- What is put out and not taken by a plain definition is an instance. -/
theorem mem_of_not_mem_plain {d : ConcreteDefinition} (member : d ∈ plain ++ instances)
    (free : d.name ∉ c.plain) : d ∈ instances := by
  rcases List.mem_append.1 member with taken | made
  · exact (free ((expansion.taken d.name).1 (List.mem_map_of_mem taken))).elim
  · exact made

theorem mem_instances {name : Text}
    (member : name ∈ (plain ++ instances).map ConcreteDefinition.name) (free : name ∉ c.plain) :
    name ∈ instances.map ConcreteDefinition.name := by
  obtain ⟨d, listed, rfl⟩ := List.mem_map.1 member
  exact List.mem_map_of_mem (expansion.mem_of_not_mem_plain listed free)

/-- The instances are exactly those that are demanded. -/
theorem mem_iff_demanded (name : Text) :
    name ∈ instances.map ConcreteDefinition.name ↔ c.Demanded types name := by
  constructor
  · intro member
    obtain ⟨d, listed, rfl⟩ := List.mem_map.1 member
    exact expansion.wanted d listed
  · intro demanded
    induction demanded with
    | given asked shown free =>
      exact expansion.mem_instances (expansion.settled _ asked _ shown) free
    | needed _ need free ih =>
      obtain ⟨d, listed, rfl⟩ := List.mem_map.1 ih
      exact expansion.mem_instances (expansion.closed d listed _ need) free

end Expansion

/-! ## What an instance consists of -/

/-- An instance is made from the last template of its name. -/
theorem exists_source_of_instance? {definitions : List Definition} {type : Text}
    {d : ConcreteDefinition}
    (made : (Catalog.ofDefinitions definitions).instance? type = some d) :
    ∃ source arguments, templateNamed definitions source.name = some source ∧
      genericUse? type = some (source.name, arguments) ∧
      arguments.length = source.distinctParameters.length ∧
      d = { name := genericText source.name arguments
            description := source.description
            properties := source.properties.map fun p =>
              { p with type := source.filledType arguments p.type } } := by
  obtain ⟨source, trees, last, -, use, -, arity, same⟩ := exists_trees_of_instance? made
  exact ⟨source, trees.map TypeExpr.name, last, use, by rw [List.length_map, arity], same⟩

/-- The output is the plain definitions and behind them, each once, the instances of the least set
that the types call for. An instance is the last template of its name with its arguments in the
places of the parameters. -/
theorem expandAll_eq_plain_append_demanded {depth : Nat} {definitions : List Definition}
    {types : List Text} {out : List ConcreteDefinition}
    (expanded : expandAll depth definitions types = .ok out) :
    ∃ instances, out = plainDefinitions definitions ++ instances ∧
      (out.map ConcreteDefinition.name).Nodup ∧
      (∀ name, name ∈ instances.map ConcreteDefinition.name ↔
        (Catalog.ofDefinitions definitions).Demanded types name) ∧
      ∀ d ∈ instances, ∃ source arguments, templateNamed definitions source.name = some source ∧
        genericUse? d.name = some (source.name, arguments) ∧
        arguments.length = source.distinctParameters.length ∧
        d = { name := genericText source.name arguments
              description := source.description
              properties := source.properties.map fun p =>
                { p with type := source.filledType arguments p.type } } := by
  obtain ⟨instances, rfl, expansion⟩ := exists_expansion expanded
  exact ⟨instances, rfl, expansion.distinct, expansion.mem_iff_demanded,
    fun d member => exists_source_of_instance? (expansion.made d member)⟩

/-- Boxes of nodes, where a node refers to further nodes and to its box. -/
def boxesOfNodes : List Definition := [
  .new "Item".toList [],
  { name := "Box".toList
    parameters := ["T".toList]
    properties := [.new "first".toList "Node<T>".toList true []] },
  { name := "Node".toList
    parameters := ["T".toList]
    properties := [.new "value".toList "T".toList true [],
      .new "next".toList "Node<T>[]".toList false [],
      .new "box".toList "Box< T >".toList false []] }]

theorem expandAll_boxesOfNodes :
    ∃ out instances, expandAll 5 boxesOfNodes ["Box<Item>[]".toList] = .ok out ∧
      out.map ConcreteDefinition.name =
        ["Item".toList, "Node<Item>".toList, "Box<Item>".toList] ∧
      out = plainDefinitions boxesOfNodes ++ instances ∧
      ∀ name, name ∈ instances.map ConcreteDefinition.name ↔
        (Catalog.ofDefinitions boxesOfNodes).Demanded ["Box<Item>[]".toList] name := by
  have names : (expandAll 5 boxesOfNodes ["Box<Item>[]".toList]).toOption.map
      (List.map ConcreteDefinition.name) =
        some ["Item".toList, "Node<Item>".toList, "Box<Item>".toList] := by
    decide +kernel
  obtain ⟨out, run, names⟩ := Option.map_eq_some_iff.1 names
  have expanded := toOption_eq_some_iff.1 run
  obtain ⟨instances, split, -, demanded, -⟩ := expandAll_eq_plain_append_demanded expanded
  exact ⟨out, instances, expanded, names, split, demanded⟩

end ApiSchema
