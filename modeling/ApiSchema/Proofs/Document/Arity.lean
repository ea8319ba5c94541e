import ApiSchema.Proofs.Document.Shown

/-!
# Numbers of arguments

In a document that expands, an object with arguments names a template with as many parameters, if
it is a node that the expansion gets to see; and it sees all nodes of a type if the templates named
in it hand on all of their parameters (`Document.expand_resolves`). A node that it does not get to
see may be anything: `Document.ArityLaw`, which asks the same of every node, fails for documents
that expand (`Document.expand_overlooks_arguments`).
-/

namespace ApiSchema

/-! ## All nodes of all types -/

/-- Every node of every type outside of templates resolves. -/
def Document.ArityLaw (d : Document) : Prop :=
  ∀ type ∈ d.referencedTypes, ∀ t ∈ (TypeExpr.parse type).toOption, ∀ node ∈ t.nodes,
    node.Resolves d.definitions

instance (d : Document) : Decidable d.ArityLaw :=
  inferInstanceAs (Decidable (∀ type ∈ d.referencedTypes,
    ∀ t ∈ (TypeExpr.parse type).toOption, ∀ node ∈ t.nodes, _))

/-- A document that refers to the type in one place. -/
def Document.ofUse (type : Text) (definitions : List Definition) : Document where
  operations := [{ Operation.new "get".toList "/things".toList [] with
    parameters := [{ name := "thing".toList, type }] }]
  definitions

/-- The parameter is not used. -/
def labelTags : Document :=
  .ofUse "Tag<Missing<Item>>".toList [
    { name := "Tag".toList
      parameters := ["T".toList]
      properties := [.new "label".toList "string".toList true []] }]

/-- The parameter is used only where an instance refers to itself. -/
def endlessPages : Document :=
  .ofUse "Page<Page<Item, Item>>".toList [
    { name := "Page".toList
      parameters := ["T".toList]
      properties := [.new "next".toList "Page<T>".toList false []] }]

/-- What the parameter stands for has the name of a plain definition. -/
def plainContent : Document :=
  .ofUse "Box<Missing<Item>>".toList [
    .new "Missing<Item>".toList [],
    { name := "Box".toList
      parameters := ["T".toList]
      properties := [.new "content".toList "T".toList true []] }]

/-- The parameter is handed to whatever another one stands for. -/
def appliedToItself : Document :=
  .ofUse "Apply<Apply, Missing<Item>>".toList [
    { name := "Apply".toList
      parameters := ["F".toList, "T".toList]
      properties := [.new "shape".toList "F<F, T>".toList true []] }]

/-- Documents expand although a nested argument names no template, or gives one too many
arguments. -/
theorem Document.expand_overlooks_arguments :
    ((∃ out, labelTags.expand 5 = .ok out) ∧ ¬ labelTags.ArityLaw) ∧
      ((∃ out, endlessPages.expand 5 = .ok out) ∧ ¬ endlessPages.ArityLaw) ∧
      ((∃ out, plainContent.expand 5 = .ok out) ∧ ¬ plainContent.ArityLaw) ∧
      (∃ out, appliedToItself.expand 5 = .ok out) ∧ ¬ appliedToItself.ArityLaw := by
  refine ⟨⟨exists_ok_of_isSome ?_, ?_⟩, ⟨exists_ok_of_isSome ?_, ?_⟩,
    ⟨exists_ok_of_isSome ?_, ?_⟩, exists_ok_of_isSome ?_, ?_⟩ <;> decide +kernel

/-! ## What is handed on -/

/-- Some property of the template brings every argument for the parameter to light. -/
def HandsOn (definitions : List Definition) (source : Definition) (parameter : Text) : Prop :=
  ∃ p ∈ source.properties, (∀ other ∈ source.parameters, ¬ Applied other p.type) ∧
    ∃ tree, TypeExpr.parse p.type = .ok tree ∧ Shows definitions tree (.ofName parameter)

/-- The template that the node names, if any, hands on all of its parameters. -/
def TypeExpr.Transparent (definitions : List Definition) (node : TypeExpr) : Prop :=
  ∀ use ∈ node.genericUse?, ∀ source ∈ templateNamed definitions use.1,
    ∀ parameter ∈ source.parameters, HandsOn definitions source parameter

section

variable {definitions : List Definition} {node item : TypeExpr}

/-- A property whose type is the parameter hands it on. -/
theorem HandsOn.of_bare {source : Definition} {parameter : Text} {p : Property}
    (member : p ∈ source.properties) (bare : p.type = parameter)
    (name : isIdentifier parameter = true) (notMeta : parameter ∉ metaWords) :
    HandsOn definitions source parameter := by
  refine ⟨p, member, fun other _ => ?_, .ofName parameter, ?_, ?_⟩
  · rw [bare]
    exact not_applied_of_isIdentifier name
  · rw [bare]
    exact parse_of_derives (.name name notMeta)
  · have shown : Shows definitions (.ofName parameter) (TypeExpr.ofName parameter).element :=
      .element _
    rwa [TypeExpr.element_ofName] at shown

theorem Shows.of_item (shown : Shows definitions item node) (name : Text) :
    Shows definitions (.array name item) node := by
  cases shown with
  | element => exact .element (.array name item)
  | argument whole last paired member unapplied read brings further =>
    exact .argument whole last paired member unapplied read brings further

theorem exists_lookup_zip {α : Type} {keys : List Text} {values : List α} {value : α}
    (distinct : keys.Nodup) (count : keys.length = values.length) (member : value ∈ values) :
    ∃ key ∈ keys, (keys.zip values).lookup key = some value := by
  obtain ⟨i, bound, rfl⟩ := List.mem_iff_getElem.1 member
  have inside : i < keys.length := by omega
  have paired : (keys[i], values[i]) ∈ keys.zip values := by
    rw [List.mem_iff_getElem]
    exact ⟨i, by rw [List.length_zip]; omega, List.getElem_zip⟩
  refine ⟨keys[i], List.getElem_mem _, lookup_of_mem ?_ paired⟩
  rwa [List.map_fst_zip (by omega)]

/-- Where all nodes are transparent, they are settled by what is shown: an object is shown, so each
of its arguments has a parameter, which some property hands on. -/
theorem resolves_of_mem_nodes :
    ∀ t : TypeExpr, (∀ node ∈ t.nodes, node.Transparent definitions) →
      (∀ node, Shows definitions t node → node.Resolves definitions) →
      ∀ node ∈ t.nodes, node.Resolves definitions
  | .primitive name kind format, _, shown, node, member => by
    rw [List.mem_singleton.1 member]
    exact shown _ (.element _)
  | .object name head arguments, clear, shown, node, member => by
    have own := shown _ (.element (.object name head arguments))
    rw [TypeExpr.nodes, TypeExpr.argumentNodes_eq_flatMap] at clear member
    obtain ⟨here, inside⟩ := List.forall_mem_cons.1 clear
    rcases List.mem_cons.1 member with rfl | below
    · exact own
    · obtain ⟨a, listed, inner⟩ := List.mem_flatMap.1 below
      have nonempty := List.ne_nil_of_mem listed
      obtain ⟨source, last, count⟩ := (TypeExpr.resolves_object_iff nonempty).1 own
      obtain ⟨parameter, known, paired⟩ :=
        exists_lookup_zip (Registry.nodup_eraseDups _) count listed
      obtain ⟨p, property, unapplied, tree, read, brings⟩ :=
        here _ (TypeExpr.genericUse?_eq_some_iff.2 ⟨name, arguments, rfl, nonempty, rfl⟩) source
          last parameter (List.mem_eraseDups.1 known)
      refine resolves_of_mem_nodes a (fun other lower => ?_) (fun other further => ?_) node inner
      · exact inside other (List.mem_flatMap.2 ⟨a, listed, lower⟩)
      · exact shown other (.argument rfl last paired property unapplied read brings further)
  | .array name item, clear, shown, node, member => by
    obtain ⟨-, inside⟩ := List.forall_mem_cons.1 clear
    rcases List.mem_cons.1 member with rfl | below
    · intro use asked
      cases asked
    · exact resolves_of_mem_nodes item inside
        (fun other further => shown other (further.of_item name)) node below

end

/-! ## Documents that expand -/

namespace Document

variable {d : Document}

/-- Let a document expand. Each type that is reached parses, and its element resolves. So does every
node that a type outside of templates shows, unless the name of a plain definition is in the way of
the instances that this type leads to. If moreover every template that the type names in any place
hands on all of its parameters, all nodes of the type resolve. -/
theorem expand_resolves {depth : Nat} {out : List ConcreteDefinition}
    (expanded : d.expand depth = .ok out) :
    (∀ type, (Catalog.ofDefinitions d.definitions).Reached d.referencedTypes type →
        ∃ t, TypeExpr.parse type = .ok t ∧ t.element.Resolves d.definitions) ∧
      ∀ given ∈ d.referencedTypes, (Catalog.ofDefinitions d.definitions).Unhindered given →
        ∀ t, TypeExpr.parse given = .ok t →
          (∀ node, Shows d.definitions t node → node.Resolves d.definitions) ∧
          ((∀ node ∈ t.nodes, node.Transparent d.definitions) →
            ∀ node ∈ t.nodes, node.Resolves d.definitions) := by
  have run := (expand_eq_ok_iff.1 expanded).2
  refine ⟨fun type reached => ?_, fun given referenced unhindered t parsed => ?_⟩
  · have granted := grants_of_expandAll run reached
    obtain ⟨t, parsed⟩ := check_eq_ok_iff.1 granted.formed
    exact ⟨t, parsed, resolves_of_grants granted parsed⟩
  · have shown : ∀ node, Shows d.definitions t node → node.Resolves d.definitions := by
      intro node shown
      apply resolves_of_shows _ parsed shown
      intro type name chain displayed
      exact grants_of_expandAll run ⟨given, referenced, unhindered.calls chain displayed⟩
    exact ⟨shown, fun clear => resolves_of_mem_nodes t clear shown⟩

/-- Pairs, of which each component hands on a parameter. -/
def pair : Definition :=
  { name := "Pair".toList
    parameters := ["A".toList, "B".toList]
    properties := [.new "key".toList "A".toList true [], .new "value".toList "B".toList true []] }

/-- Pages, which hand on their parameter to pairs. -/
def page : Definition :=
  { name := "Page".toList
    parameters := ["T".toList]
    properties := [.new "rows".toList "Pair<string, T>[]".toList true [],
      .new "next".toList "Page<T>".toList false []] }

/-- A page of pairs of which one component is a list of pages. -/
def nestedPages : Document :=
  .ofUse "Page<Pair<Item, Page< Item >[]>>[]".toList [.new "Item".toList [], page, pair]

theorem transparent_nestedPages (node : TypeExpr) :
    node.Transparent nestedPages.definitions := by
  intro use _ source last parameter listed
  obtain ⟨given, isTemplate, -⟩ := mem_of_templateNamed last
  have value : HandsOn nestedPages.definitions pair "B".toList :=
    .of_bare (List.mem_cons_of_mem _ (List.mem_cons_self ..)) rfl (by decide) (by decide)
  rcases List.mem_cons.1 given with rfl | given
  · cases isTemplate
  rcases List.mem_cons.1 given with rfl | given
  · obtain rfl := List.mem_singleton.1 listed
    have derived : ∀ a ∈ [TypeExpr.ofName "string".toList, .ofName "T".toList],
        Derives a.name a := by
      intro a member
      rcases List.mem_cons.1 member with rfl | member
      · exact .name (by decide) (by decide)
      · rw [List.mem_singleton.1 member]
        exact .name (by decide) (by decide)
    have read : TypeExpr.parse "Pair<string, T>[]".toList = .ok _ :=
      parse_of_derives (.array (@derives_genericText "Pair".toList _ (by decide) (by decide)
        (List.cons_ne_nil _ _) derived))
    obtain ⟨p, property, unapplied, tree, readValue, brings⟩ := value
    refine ⟨_, List.mem_cons_self .., by decide +kernel, _, read, ?_⟩
    exact .argument rfl rfl rfl property unapplied readValue brings (.element _)
  · obtain rfl := List.mem_singleton.1 given
    rcases List.mem_cons.1 listed with rfl | listed
    · exact .of_bare (List.mem_cons_self ..) rfl (by decide) (by decide)
    · rw [List.mem_singleton.1 listed]
      exact value

theorem expand_resolves_nestedPages :
    ∃ out t, nestedPages.expand 6 = .ok out ∧
      TypeExpr.parse "Page<Pair<Item, Page< Item >[]>>[]".toList = .ok t ∧
      t.element.Resolves nestedPages.definitions ∧
      (∀ node, Shows nestedPages.definitions t node → node.Resolves nestedPages.definitions) ∧
      (∀ node ∈ t.nodes, node.Transparent nestedPages.definitions) ∧
      ∀ node ∈ t.nodes, node.Resolves nestedPages.definitions := by
  obtain ⟨out, expanded⟩ :=
    exists_ok_of_isSome (by decide +kernel : (nestedPages.expand 6).toOption.isSome = true)
  obtain ⟨reached, nodes⟩ := expand_resolves expanded
  have referenced : "Page<Pair<Item, Page< Item >[]>>[]".toList ∈ nestedPages.referencedTypes := by
    decide +kernel
  have bare : ∀ name ∈ plainNames nestedPages.definitions, genericUse? name = none := by
    decide +kernel
  obtain ⟨t, parsed, resolves⟩ := reached _ ⟨_, referenced, .refl⟩
  obtain ⟨shown, all⟩ := nodes _ referenced (Catalog.unhindered_of_names bare _) t parsed
  have clear : ∀ node ∈ t.nodes, node.Transparent nestedPages.definitions :=
    fun node _ => transparent_nestedPages node
  exact ⟨out, t, expanded, parsed, resolves, shown, clear, all clear⟩

end Document

end ApiSchema
