import ApiSchema.Proofs.Expansion.Granted

/-!
# Lists of references with the same elements

What can be reached, and so what is demanded and what is granted, depends on which types are given
and not on where or how often they stand in the list. Two runs whose lists have the same elements
walk through the templates in different orders, but neither fails where the other does not, and the
instances of one are a permutation of those of the other (`expandAll_of_same_types`). Their order
is the walk's.
-/

namespace ApiSchema

variable {c : Catalog} {types others : List Text} {plain : List ConcreteDefinition}

namespace Expansion

variable {instances further : List ConcreteDefinition}

theorem nodup_instances (expansion : Expansion c types plain instances) : instances.Nodup := by
  have distinct := expansion.distinct
  rw [List.map_append] at distinct
  exact List.Nodup.of_map _ (List.nodup_append.1 distinct).2.1

/-- The instances that fewer types call for are among those of more. -/
theorem subset_of_subset (expansion : Expansion c types plain instances)
    (wider : Expansion c others plain further) (subset : types ⊆ others) :
    instances ⊆ further := fun d member =>
  wider.mem_of_demanded (expansion.made d member) ((expansion.wanted d member).mono subset)

theorem perm_of_same_types (expansion : Expansion c types plain instances)
    (other : Expansion c others plain further) (same : ∀ type, type ∈ types ↔ type ∈ others) :
    further.Perm instances := by
  refine (List.perm_ext_iff_of_nodup other.nodup_instances expansion.nodup_instances).2 fun d => ?_
  constructor
  · exact fun member => other.subset_of_subset expansion (fun type => (same type).2) member
  · exact fun member => expansion.subset_of_subset other (fun type => (same type).1) member

end Expansion

/-- Let an expansion succeed, and let another list hold the same types, in any order and any number
of times. Its expansion puts out the same plain definitions and behind them the same instances up
to order, with any bound that exceeds their number; with a lower one it does so or runs into the
bound. -/
theorem expandAll_of_same_types {depth : Nat} {definitions : List Definition}
    {out : List ConcreteDefinition} (same : ∀ type, type ∈ types ↔ type ∈ others)
    (expanded : expandAll depth definitions types = .ok out) :
    ∃ instances, out = plainDefinitions definitions ++ instances ∧
      ∀ bound,
        (∃ further, expandAll bound definitions others =
            .ok (plainDefinitions definitions ++ further) ∧ further.Perm instances) ∨
          expandAll bound definitions others = .error .tooDeep ∧ bound ≤ instances.length := by
  obtain ⟨instances, split, expansion⟩ := exists_expansion expanded
  refine ⟨instances, split, fun bound => ?_⟩
  obtain ⟨x, -, started, -, -⟩ := expandAll_eq_ok_iff.1 expanded
  have subset : others ⊆ types := fun type => (same type).2
  have granted : ∀ type, (Catalog.ofDefinitions definitions).Reached others type →
      (Catalog.ofDefinitions definitions).Grants type :=
    fun type reached => grants_of_expandAll expanded (reached.mono subset)
  have finite : ∀ name, (Catalog.ofDefinitions definitions).Demanded others name →
      name ∈ instances.map ConcreteDefinition.name :=
    fun name demanded => (expansion.mem_iff_demanded name).2 (demanded.mono subset)
  rcases expandAll_of_granted started granted finite with ⟨out', again⟩ | ⟨stopped, low⟩
  · obtain ⟨further, rfl, other⟩ := exists_expansion again
    exact .inl ⟨further, again, expansion.perm_of_same_types other same⟩
  · rw [List.length_map] at low
    exact .inr ⟨stopped, low⟩

/-- Parents and children that refer to each other. -/
def parentsOfChildren : List Definition := [
  .new "Item".toList [],
  { name := "Parent".toList
    parameters := ["T".toList]
    properties := [.new "child".toList "Child<T>".toList true []] },
  { name := "Child".toList
    parameters := ["T".toList]
    properties := [.new "value".toList "T".toList true [],
      .new "parent".toList "Parent<T>".toList true []] }]

/-- Whichever is asked for first comes last. -/
theorem expandAll_parentsOfChildren :
    (∀ type, type ∈ ["Parent<Item>".toList, "Child<Item>".toList] ↔
        type ∈ ["Child<Item>".toList, "Parent<Item>".toList, "Child<Item>".toList]) ∧
      ∃ instances further,
        expandAll 3 parentsOfChildren ["Parent<Item>".toList, "Child<Item>".toList] =
          .ok (plainDefinitions parentsOfChildren ++ instances) ∧
        instances.map ConcreteDefinition.name = ["Child<Item>".toList, "Parent<Item>".toList] ∧
        expandAll 3 parentsOfChildren
            ["Child<Item>".toList, "Parent<Item>".toList, "Child<Item>".toList] =
          .ok (plainDefinitions parentsOfChildren ++ further) ∧
        further.map ConcreteDefinition.name = ["Parent<Item>".toList, "Child<Item>".toList] ∧
        further.Perm instances := by
  have same : ∀ type, type ∈ ["Parent<Item>".toList, "Child<Item>".toList] ↔
      type ∈ ["Child<Item>".toList, "Parent<Item>".toList, "Child<Item>".toList] := by
    intro type
    simp only [List.mem_cons, List.not_mem_nil, or_false]
    tauto
  have names : (expandAll 3 parentsOfChildren
      ["Parent<Item>".toList, "Child<Item>".toList]).toOption.map
        (List.map ConcreteDefinition.name) =
          some ["Item".toList, "Child<Item>".toList, "Parent<Item>".toList] := by
    decide +kernel
  have namesAgain : (expandAll 3 parentsOfChildren
      ["Child<Item>".toList, "Parent<Item>".toList, "Child<Item>".toList]).toOption.map
        (List.map ConcreteDefinition.name) =
          some ["Item".toList, "Parent<Item>".toList, "Child<Item>".toList] := by
    decide +kernel
  have plain : (plainDefinitions parentsOfChildren).map ConcreteDefinition.name =
      ["Item".toList] := by
    decide +kernel
  obtain ⟨out, run, names⟩ := Option.map_eq_some_iff.1 names
  obtain ⟨instances, rfl, others⟩ :=
    expandAll_of_same_types same (toOption_eq_some_iff.1 run)
  rw [List.map_append, plain, List.singleton_append] at names
  have instanceNames := (List.cons.inj names).2
  obtain ⟨again, runAgain, namesAgain⟩ := Option.map_eq_some_iff.1 namesAgain
  rcases others 3 with ⟨further, expanded, perm⟩ | ⟨-, low⟩
  · refine ⟨same, instances, further, toOption_eq_some_iff.1 run, instanceNames, expanded, ?_, perm⟩
    rw [expanded] at runAgain
    cases runAgain
    rw [List.map_append, plain, List.singleton_append] at namesAgain
    exact (List.cons.inj namesAgain).2
  · have two := congrArg List.length instanceNames
    rw [List.length_map] at two
    rw [two] at low
    exact absurd low (by decide)

end ApiSchema
