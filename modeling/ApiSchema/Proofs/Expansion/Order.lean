import Mathlib.Data.List.Nodup
import ApiSchema.Proofs.Expansion.Closure

/-!
# The order of an expansion

An instance stands behind whatever its properties refer to, unless that depends on the instance in
turn: this is the `ordered` part of an `Expansion`, which speaks of names, put in terms of the
definitions of the output. Without circles nothing comes before what it needs.
-/

namespace ApiSchema

open Relation

/-- A property of the instance `d` refers to the definition `e`. -/
def DependsOn (c : Catalog) (out : List ConcreteDefinition) (d e : ConcreteDefinition) : Prop :=
  d ∈ out ∧ d.name ∉ c.plain ∧ e ∈ out ∧ c.Asked d.properties e.name

/-- The definition `e` comes strictly before `d`. -/
def StandsBefore (out : List ConcreteDefinition) (e d : ConcreteDefinition) : Prop :=
  ∃ front back, out = front ++ d :: back ∧ e ∈ front

namespace Expansion

variable {c : Catalog} {types : List Text} {plain instances : List ConcreteDefinition}
variable (expansion : Expansion c types plain instances)

include expansion

theorem exists_dependsOn_of_needs {d : ConcreteDefinition} (member : d ∈ plain ++ instances)
    {name : Text} (need : c.Needs d.name name) :
    ∃ e, e.name = name ∧ DependsOn c (plain ++ instances) d e := by
  have made := expansion.mem_of_not_mem_plain member need.1
  obtain ⟨e, listed, rfl⟩ := List.mem_map.1 (expansion.closed d made name need)
  have asked := (Catalog.needs_iff_asked need.1 (expansion.made d made)).1 need
  exact ⟨e, rfl, member, need.1, listed, asked⟩

/-- A chain of needs runs through the definitions of the output. -/
theorem exists_chain_of_needs {d : ConcreteDefinition} (member : d ∈ plain ++ instances)
    {name : Text} (chain : TransGen c.Needs d.name name) :
    ∃ e ∈ plain ++ instances, e.name = name ∧
      TransGen (DependsOn c (plain ++ instances)) d e := by
  induction chain with
  | single need =>
    obtain ⟨e, named, depends⟩ := expansion.exists_dependsOn_of_needs member need
    exact ⟨e, depends.2.2.1, named, .single depends⟩
  | tail _ need ih =>
    obtain ⟨m, listed, rfl, chain⟩ := ih
    obtain ⟨e, named, depends⟩ := expansion.exists_dependsOn_of_needs listed need
    exact ⟨e, depends.2.2.1, named, chain.tail depends⟩

theorem standsBefore_or_depends {d : ConcreteDefinition} (made : d ∈ instances) {name : Text}
    (asked : c.Asked d.properties name) :
    ∃ e ∈ plain ++ instances, e.name = name ∧ (StandsBefore (plain ++ instances) e d ∨ e = d ∨
      TransGen (DependsOn c (plain ++ instances)) e d) := by
  have member : d ∈ plain ++ instances := List.mem_append_right _ made
  have need := (Catalog.needs_iff_asked (expansion.name_not_mem_plain made)
    (expansion.made d made)).2 asked
  obtain ⟨e, rfl, -, -, listed, -⟩ := expansion.exists_dependsOn_of_needs member need
  refine ⟨e, listed, rfl, ?_⟩
  obtain ⟨before, after, split, place⟩ := expansion.ordered d made
  rcases place e.name need with front | self | back
  · -- names are distinct, so the definition of that name in front is `e`
    obtain ⟨other, early, same⟩ := List.mem_map.1 front
    have whole : plain ++ instances = (plain ++ before) ++ d :: after := by
      rw [split, List.append_assoc]
    have known : other ∈ plain ++ instances := by
      rw [whole]
      exact List.mem_append_left _ early
    rw [List.inj_on_of_nodup_map expansion.distinct known listed same] at early
    exact Or.inl ⟨plain ++ before, after, whole, early⟩
  · exact Or.inr (Or.inl (List.inj_on_of_nodup_map expansion.distinct listed member self))
  · obtain ⟨last, known, same, chain⟩ := expansion.exists_chain_of_needs listed back
    rw [List.inj_on_of_nodup_map expansion.distinct known member same] at chain
    exact Or.inr (Or.inr chain)

end Expansion

/-- What a property of an instance refers to is put out, and strictly before the instance unless
the two are one or it depends on the instance in turn. Where nothing depends on itself, every
definition comes behind all that it depends on. -/
theorem expandAll_ordered {depth : Nat} {definitions : List Definition} {types : List Text}
    {out : List ConcreteDefinition} (expanded : expandAll depth definitions types = .ok out) :
    (∀ d ∈ out, d.name ∉ plainNames definitions → ∀ p ∈ d.properties,
        p.type ∉ plainNames definitions → ∀ name, displayName? p.type = some name →
        ∃ e ∈ out, e.name = name ∧ (StandsBefore out e d ∨ e = d ∨
          TransGen (DependsOn (Catalog.ofDefinitions definitions) out) e d)) ∧
      ((∀ d, ¬ TransGen (DependsOn (Catalog.ofDefinitions definitions) out) d d) →
        ∀ d e, DependsOn (Catalog.ofDefinitions definitions) out d e → StandsBefore out e d) := by
  obtain ⟨instances, rfl, expansion⟩ := exists_expansion expanded
  constructor
  · intro d member free p listed unnamed name shown
    exact expansion.standsBefore_or_depends (expansion.mem_of_not_mem_plain member free)
      ⟨p, listed, unnamed, shown⟩
  · intro acyclic d e depends
    obtain ⟨member, free, listed, asked⟩ := depends
    obtain ⟨other, known, same, place⟩ := expansion.standsBefore_or_depends
      (expansion.mem_of_not_mem_plain member free) asked
    rw [List.inj_on_of_nodup_map expansion.distinct known listed same] at place
    rcases place with before | self | back
    · exact before
    · rw [self] at asked
      exact (acyclic d (.single ⟨member, free, member, asked⟩)).elim
    · exact (acyclic d (.head ⟨member, free, listed, asked⟩ back)).elim

/-- Pages of pairs, where nothing refers back. -/
def pagesOfPairs : List Definition := [
  { name := "Page".toList
    parameters := ["T".toList]
    properties := [.new "rows".toList "Pair<T,string>[]".toList true []] },
  { name := "Pair".toList
    parameters := ["L".toList, "R".toList]
    properties := [.new "left".toList "L".toList true [], .new "right".toList "R".toList true []] }]

theorem expandAll_pagesOfPairs :
    ∃ out, expandAll 5 pagesOfPairs ["Page<Item>".toList] = .ok out ∧
      out.map ConcreteDefinition.name = ["Pair<Item, string>".toList, "Page<Item>".toList] ∧
      (∀ d, ¬ TransGen (DependsOn (Catalog.ofDefinitions pagesOfPairs) out) d d) ∧
      ∀ d e, DependsOn (Catalog.ofDefinitions pagesOfPairs) out d e → StandsBefore out e d := by
  have listed : (expandAll 5 pagesOfPairs ["Page<Item>".toList]).toOption.map
      (List.map fun d => (d.name, d.properties.filterMap fun p => displayName? p.type)) =
        some [("Pair<Item, string>".toList, []),
          ("Page<Item>".toList, ["Pair<Item, string>".toList])] := by
    decide +kernel
  obtain ⟨out, run, listed⟩ := Option.map_eq_some_iff.1 listed
  have expanded := toOption_eq_some_iff.1 run
  have edge : ∀ d e, DependsOn (Catalog.ofDefinitions pagesOfPairs) out d e →
      d.name = "Page<Item>".toList ∧ e.name = "Pair<Item, string>".toList := by
    intro d e ⟨member, _, _, p, property, _, shown⟩
    have row := List.mem_map_of_mem
      (f := fun d : ConcreteDefinition =>
        (d.name, d.properties.filterMap fun p => displayName? p.type)) member
    have refers : e.name ∈ d.properties.filterMap fun p => displayName? p.type :=
      List.mem_filterMap.2 ⟨p, property, shown⟩
    rw [listed] at row
    rcases List.mem_cons.1 row with pair | row
    · rw [(Prod.mk.inj pair).2] at refers
      cases refers
    · have page := List.mem_singleton.1 row
      rw [(Prod.mk.inj page).2] at refers
      exact ⟨(Prod.mk.inj page).1, List.mem_singleton.1 refers⟩
  have acyclic : ∀ d, ¬ TransGen (DependsOn (Catalog.ofDefinitions pagesOfPairs) out) d d := by
    intro d circle
    obtain ⟨m, first, -⟩ := TransGen.head'_iff.1 circle
    obtain ⟨n, -, last⟩ := TransGen.tail'_iff.1 circle
    have same := (edge d m first).1.symm.trans (edge n d last).2
    exact absurd same (by decide)
  have names := congrArg (List.map Prod.fst) listed
  rw [List.map_map] at names
  exact ⟨out, expanded, names, acyclic, (expandAll_ordered expanded).2 acyclic⟩

end ApiSchema
