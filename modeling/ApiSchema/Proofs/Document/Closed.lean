import ApiSchema.Document.Types
import ApiSchema.Proofs.Expansion.Granted
import ApiSchema.Proofs.Template.Substitution

/-!
# Expanded documents are closed

`Served out type` says that a type is well formed and that the definition it refers to, if any, is
among `out`. Where a document expands, all types of its operations are served by what is put out,
and so are the types of the properties in it (`Document.expand_closed`). The reasons differ: types
outside of templates are checked before anything else and given to the expansion, and those that
arise by instantiation are granted by the expansion itself. It makes one exception, for a type that
is spelled like the name of a plain definition.
-/

namespace ApiSchema

/-- The type is well formed, and what it refers to is among the definitions. -/
structure Served (out : List ConcreteDefinition) (type : Text) : Prop where
  formed : TypeExpr.check type = .ok ()
  defined : ∀ name, displayName? type = some name → name ∈ out.map ConcreteDefinition.name

/-! ## The types of a document -/

namespace Document

variable {d : Document}

theorem mem_referencedTypes_iff {type : Text} :
    type ∈ d.referencedTypes ↔
      (∃ o ∈ d.operations, (∃ q ∈ o.parameters, q.type = type) ∨
        ∃ r ∈ o.responses, Text.trim r.type ≠ [] ∧ r.type = type) ∨
      ∃ e ∈ d.plainDefinitions, ∃ p ∈ e.properties, p.type = type := by
  have body : ∀ o : Operation, type ∈ o.types ↔ (∃ q ∈ o.parameters, q.type = type) ∨
      ∃ r ∈ o.responses, Text.trim r.type ≠ [] ∧ r.type = type := by
    intro o
    rw [Operation.types, List.mem_append, List.mem_filter, List.mem_map, List.mem_map]
    refine or_congr Iff.rfl ⟨?_, ?_⟩
    · rintro ⟨⟨r, listed, rfl⟩, present⟩
      exact ⟨r, listed, by simpa using present, rfl⟩
    · rintro ⟨r, listed, present, rfl⟩
      exact ⟨⟨r, listed, rfl⟩, by simpa using present⟩
  simp only [referencedTypes, List.mem_append, List.mem_flatMap, body, Definition.types,
    List.mem_map]

theorem checkTypes_eq_ok_iff :
    d.checkTypes = .ok () ↔ (∀ type ∈ d.referencedTypes, TypeExpr.check type = .ok ()) ∧
      ∀ e ∈ d.templates, ∀ p ∈ e.properties, TypeExpr.check p.type = .ok () := by
  have sources : (∀ type ∈ d.templates.flatMap Definition.types, TypeExpr.check type = .ok ()) ↔
      ∀ e ∈ d.templates, ∀ p ∈ e.properties, TypeExpr.check p.type = .ok () := by
    simp only [List.forall_mem_flatMap, Definition.types, List.forall_mem_map]
  rw [checkTypes, bind_eq_ok_iff, forM_eq_ok_iff, sources]
  constructor
  · rintro ⟨⟨⟩, referenced, templates⟩
    exact ⟨forM_eq_ok_iff.1 referenced, templates⟩
  · exact fun ⟨referenced, templates⟩ => ⟨(), forM_eq_ok_iff.2 referenced, templates⟩

theorem expand_eq_ok_iff {depth : Nat} {out : List ConcreteDefinition} :
    d.expand depth = .ok out ↔
      d.checkTypes = .ok () ∧ expandAll depth d.definitions d.referencedTypes = .ok out := by
  rw [expand, bind_eq_ok_iff]
  constructor
  · rintro ⟨⟨⟩, checked, expanded⟩
    exact ⟨mapError_eq_ok_iff.1 checked, expanded⟩
  · exact fun ⟨checked, expanded⟩ => ⟨(), mapError_eq_ok_iff.2 checked, expanded⟩

end Document

/-! ## Types without placeholders -/

theorem opening_not_mem_of_check {type : Text} (checked : TypeExpr.check type = .ok ()) :
    '«' ∉ type := by
  obtain ⟨t, parsed⟩ := check_eq_ok_iff.1 checked
  exact opening_not_mem_of_trim (parse_eq_ok_iff.1 parsed)

/-- An instance of a template whose types are well formed has no placeholder left in its own. -/
theorem opening_not_mem_of_instance? {definitions : List Definition}
    (checked : ∀ source ∈ definitions, source.isTemplate = true →
      ∀ p ∈ source.properties, TypeExpr.check p.type = .ok ())
    {type : Text} {e : ConcreteDefinition}
    (made : (Catalog.ofDefinitions definitions).instance? type = some e) :
    ∀ p ∈ e.properties, '«' ∉ p.type := by
  obtain ⟨source, trees, last, names, -, derived, arity, rfl⟩ := exists_trees_of_instance? made
  obtain ⟨listed, isTemplate, -⟩ := mem_of_templateNamed last
  intro p member
  obtain ⟨q, property, rfl⟩ := List.mem_map.1 member
  obtain ⟨t, parsed⟩ := check_eq_ok_iff.1 (checked source listed isTemplate q property)
  exact opening_not_mem_filledType names derived arity (parse_eq_ok_iff.1 parsed)

/-! ## What an expansion serves -/

section

variable {depth : Nat} {definitions : List Definition} {types : List Text}
  {instances : List ConcreteDefinition}

/-- The types that arise by instantiation are well formed and served, but for those that are
spelled like the name of a plain definition. -/
theorem served_of_mem_instances
    (expanded : expandAll depth definitions types =
      .ok (plainDefinitions definitions ++ instances))
    (expansion : Expansion (Catalog.ofDefinitions definitions) types
      (plainDefinitions definitions) instances)
    {e : ConcreteDefinition} (member : e ∈ instances) {p : Property} (listed : p ∈ e.properties)
    (unnamed : p.type ∉ plainNames definitions) :
    Served (plainDefinitions definitions ++ instances) p.type := by
  have made := expansion.made e member
  have free := expansion.name_not_mem_plain member
  obtain ⟨type, ⟨given, asked, calls⟩, shown⟩ := (expansion.wanted e member).exists_reached
  have call : (Catalog.ofDefinitions definitions).Calls type p.type :=
    ⟨e, (Catalog.instance?_of_displayName? shown).symm.trans made, free, ⟨p, listed, rfl⟩, unnamed⟩
  have granted := grants_of_expandAll expanded ⟨given, asked, calls.tail call⟩
  exact ⟨granted.formed, fun name displayed =>
    expansion.closed e member name ⟨free, e, made, p, listed, unnamed, displayed⟩⟩

end

/-- Let a document expand. The types of its parameters and of the responses that have a body are
served by what is put out. No type of a property that is put out has a placeholder left, and each is
served but for one case: a type of an instance that is spelled like the name of a plain
definition. -/
theorem Document.expand_closed {d : Document} {depth : Nat} {out : List ConcreteDefinition}
    (expanded : d.expand depth = .ok out) :
    (∀ o ∈ d.operations, (∀ q ∈ o.parameters, Served out q.type) ∧
        ∀ r ∈ o.responses, Text.trim r.type ≠ [] → Served out r.type) ∧
      ∀ e ∈ out, ∀ p ∈ e.properties, '«' ∉ p.type ∧
        (Served out p.type ∨ e.name ∉ d.plainDefinitions.map Definition.name ∧
          p.type ∈ d.plainDefinitions.map Definition.name) := by
  obtain ⟨checked, run⟩ := expand_eq_ok_iff.1 expanded
  obtain ⟨referenced, templates⟩ := checkTypes_eq_ok_iff.1 checked
  obtain ⟨instances, rfl, expansion⟩ := exists_expansion run
  have served : ∀ type ∈ d.referencedTypes,
      Served (ApiSchema.plainDefinitions d.definitions ++ instances) type :=
    fun type member => ⟨referenced type member, expansion.settled type member⟩
  constructor
  · intro o listed
    constructor
    · intro q parameter
      exact served _ (mem_referencedTypes_iff.2 (.inl ⟨o, listed, .inl ⟨q, parameter, rfl⟩⟩))
    · intro r response body
      exact served _ (mem_referencedTypes_iff.2 (.inl ⟨o, listed, .inr ⟨r, response, body, rfl⟩⟩))
  intro e put p listed
  rcases List.mem_append.1 put with plain | member
  · obtain ⟨source, given, rfl⟩ := List.mem_map.1 (Registry.mem_of_mem_lastOfEach plain)
    have own := served _ (mem_referencedTypes_iff.2 (.inr ⟨source, given, p, listed, rfl⟩))
    exact ⟨opening_not_mem_of_check own.formed, .inl own⟩
  · refine ⟨opening_not_mem_of_instance? (fun source given template => ?_)
      (expansion.made e member) p listed, ?_⟩
    · exact templates source (List.mem_filter.2 ⟨given, template⟩)
    · by_cases named : p.type ∈ plainNames d.definitions
      · exact .inr ⟨expansion.name_not_mem_plain member, named⟩
      · exact .inl (served_of_mem_instances run expansion member listed named)

/-- A page of items, which refers to further pages and to pairs. -/
def itemPages : Document where
  operations := [{ Operation.new "get".toList "/items".toList [] with
    parameters := [{ name := "limit".toList, type := "integer#int64".toList }]
    responses := [{ code := 200, type := "Page< Item >".toList },
      { code := 204, type := " ".toList }] }]
  definitions := [
    { name := "Item".toList
      properties := [.new "name".toList "string".toList true []] },
    { name := "Page".toList
      parameters := ["T".toList]
      properties := [.new "items".toList "Pair<string, T>[]".toList true [],
        .new "next".toList "Page<T>".toList false []] },
    { name := "Pair".toList
      parameters := ["A".toList, "B".toList]
      properties := [.new "key".toList "A".toList true [],
        .new "value".toList "B".toList true []] }]

theorem expand_closed_itemPages :
    ∃ out, itemPages.expand 3 = .ok out ∧
      out.map ConcreteDefinition.name =
        ["Item".toList, "Pair<string, Item>".toList, "Page<Item>".toList] ∧
      Served out "integer#int64".toList ∧ Served out "Page< Item >".toList ∧
      ∀ e ∈ out, ∀ p ∈ e.properties, '«' ∉ p.type ∧
        (Served out p.type ∨ e.name ∉ itemPages.plainDefinitions.map Definition.name ∧
          p.type ∈ itemPages.plainDefinitions.map Definition.name) := by
  have names : (itemPages.expand 3).toOption.map (List.map ConcreteDefinition.name) =
      some ["Item".toList, "Pair<string, Item>".toList, "Page<Item>".toList] := by
    decide +kernel
  obtain ⟨out, run, names⟩ := Option.map_eq_some_iff.1 names
  have expanded := toOption_eq_some_iff.1 run
  obtain ⟨operations, properties⟩ := Document.expand_closed expanded
  obtain ⟨parameters, responses⟩ := operations _ (List.mem_cons_self ..)
  exact ⟨out, expanded, names, parameters _ (List.mem_cons_self ..),
    responses _ (List.mem_cons_self ..) (by decide +kernel), properties⟩

end ApiSchema
