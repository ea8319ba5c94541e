import Mathlib.Data.Finset.Card
import ApiSchema.Document.Types
import ApiSchema.Proofs.Expansion.Progress
import ApiSchema.Proofs.Expansion.Reached

/-!
# How deep a call goes

`Expander.extract` takes a bound on the number of calls inside of each other. A call that does not
run into the bound does the same with any larger one (`extract_of_le`), so a bound that is not run
into is no part of what the call does.

Nothing becomes smaller from a call to the calls that it makes: the types may grow, and marks are
set and taken off again. What decreases is the number of names that can still be begun.
`ClosedNames x names` says that `names` holds, with an instance, the instances that its properties
refer to. Each call inside of another has one more of these names in progress, so the depth exceeds
their number by one at most (`extract_ends_of_closed`).
-/

namespace ApiSchema

namespace Expander

variable {x y : Expander} {type : Text} {depth more : Nat}

/-! ## More depth -/

theorem visit_congr {step other : Expander → Text → Except Stop Unit × Expander}
    (agree : ∀ x type, (step x type).1 ≠ .error .tooDeep → other x type = step x type)
    {properties : List Property}
    (finished : (visit step x properties).1 ≠ .error .tooDeep) :
    visit other x properties = visit step x properties := by
  induction properties generalizing x with
  | nil => rfl
  | cons p properties ih =>
    rw [visit] at finished
    rw [visit, visit]
    split at finished
    · rename_i registered
      rw [if_pos registered, if_pos registered]
      exact ih finished
    · rename_i unregistered
      rw [if_neg unregistered, if_neg unregistered]
      have same : other x p.type = step x p.type := by
        refine agree x p.type fun deep => finished ?_
        split
        · rename_i z stepped
          rw [stepped] at deep
          cases deep
        · exact deep
      rw [same]
      split at finished
      · exact ih finished
      · rfl

/-- A call that does not run into the bound does the same with the next one. -/
theorem extract_succ (finished : (x.extract depth type).1 ≠ .error .tooDeep) :
    x.extract (depth + 1) type = x.extract depth type := by
  induction depth generalizing x type with
  | zero => exact absurd rfl finished
  | succ depth ih =>
    rw [extract] at finished
    rw [extract, extract]
    split at finished
    · rfl
    · rfl
    · rename_i template arguments asked
      dsimp only at finished ⊢
      split at finished
      · rename_i known
        rw [if_pos known, if_pos known]
      · rename_i unknown
        rw [if_neg unknown, if_neg unknown, visit_congr fun x type => ih]
        intro deep
        apply finished
        split
        · rename_i z visited
          rw [visited] at deep
          cases deep
        · exact deep

theorem extract_of_le (le : depth ≤ more) (finished : (x.extract depth type).1 ≠ .error .tooDeep) :
    x.extract more type = x.extract depth type := by
  induction more, le using Nat.le_induction with
  | base => rfl
  | succ more _ ih =>
    rw [← ih] at finished ⊢
    exact extract_succ finished

theorem extractAll_of_le {types : List Text} (le : depth ≤ more)
    (finished : x.extractAll depth types ≠ .error .tooDeep) :
    x.extractAll more types = x.extractAll depth types := by
  induction types generalizing x with
  | nil => rfl
  | cons type types ih =>
    rw [extractAll] at finished
    rw [extractAll, extractAll]
    have same : x.extract more type = x.extract depth type := by
      refine extract_of_le le fun deep => finished ?_
      split
      · rename_i z extracted
        rw [extracted] at deep
        cases deep
      · rename_i stop z extracted
        rw [extracted] at deep
        cases deep
        rfl
    rw [same]
    split at finished
    · exact ih finished
    · rfl

/-! ## Closed sets of names -/

/-- The type refers to the instance, and there is a template that it can be made from. -/
def RefersTo (x : Expander) (type : Text) (d : ConcreteDefinition) : Prop :=
  ∃ template arguments, x.request type = .ok (some (template, arguments)) ∧
    template.instantiate arguments = d

/-- With an instance, the names hold the instances that the types of its properties refer to. -/
def ClosedNames (x : Expander) (names : Finset Text) : Prop :=
  ∀ type d, x.RefersTo type d → d.name ∈ names →
    ∀ p ∈ d.properties, ∀ e, x.RefersTo p.type e → e.name ∈ names

/-- The names of instances that are neither made nor being made. -/
def unbegun (x : Expander) (names : Finset Text) : Finset Text :=
  names.filter fun name => x.isKnown name = false

variable {names : Finset Text}

theorem refersTo_congr (same : y.templates = x.templates) {d : ConcreteDefinition} :
    y.RefersTo type d ↔ x.RefersTo type d := by
  simp only [RefersTo, request_congr same]

theorem ClosedNames.congr (closed : x.ClosedNames names) (same : y.templates = x.templates) :
    y.ClosedNames names := by
  intro type d refers member p listed e further
  rw [refersTo_congr same] at refers further
  exact closed type d refers member p listed e further

/-- Where a walk below an instance has got to, this instance is no longer to be begun. -/
theorem card_unbegun_lt {name : Text} (member : name ∈ names) (unknown : x.isKnown name = false)
    (continues : Continues (x.begin name) y) : (y.unbegun names).card < (x.unbegun names).card := by
  refine Finset.card_lt_card ⟨fun other listed => ?_, fun subset => ?_⟩
  · obtain ⟨inside, idle⟩ := Finset.mem_filter.1 listed
    obtain ⟨unregistered, unmarked⟩ := isKnown_eq_false_iff.1 idle
    refine Finset.mem_filter.2 ⟨inside, isKnown_eq_false_iff.2 ⟨fun known => ?_, fun known => ?_⟩⟩
    · exact unregistered (continues.keys_subset other known)
    · exact unmarked (continues.inProgress.subset (List.mem_cons_of_mem _ known))
  · have own := subset (Finset.mem_filter.2 ⟨member, unknown⟩)
    have idle := (isKnown_eq_false_iff.1 (Finset.mem_filter.1 own).2).2
    exact idle (continues.inProgress.subset (List.mem_cons_self ..))

/-- A call does not run into a bound above the number of names that can still be begun. -/
theorem extract_ne_tooDeep (closed : x.ClosedNames names)
    (start : ∀ d, x.RefersTo type d → d.name ∈ names) (room : (x.unbegun names).card < depth) :
    (x.extract depth type).1 ≠ .error .tooDeep := by
  intro deep
  have run : x.extract depth type = (.error .tooDeep, (x.extract depth type).2) := Prod.ext deep rfl
  generalize (x.extract depth type).2 = y at run
  clear deep
  induction depth generalizing x type with
  | zero => exact absurd room (Nat.not_lt_zero _)
  | succ depth ih =>
    rcases extract_eq_error run with ⟨e, -, same, -⟩ | ⟨template, arguments, asked, unknown, visited⟩
    · cases same
    · obtain ⟨before, p, after, z, split, visits, -, stopped⟩ := exists_stop_of_visit visited
      have walked := (visits.continues continues_of_extract_ok).1
      have templates := ((continues_begin unknown).trans walked).templates
      have own : x.RefersTo type (template.instantiate arguments) := ⟨_, _, asked, rfl⟩
      have member : p ∈ (template.instantiate arguments).properties := by
        rw [split]
        exact List.mem_append_right _ (List.mem_cons_self ..)
      have smaller := card_unbegun_lt (start _ own) unknown walked
      refine ih (closed.congr templates) (fun e refers => ?_) (by omega) stopped
      exact closed type _ own (start _ own) p member e ((refersTo_congr templates).1 refers)

/-- In a state that draws on a catalog, instances are known by their names, so it is enough to look
at the instances of the names in the set. -/
theorem closedNames_of_drawsOn {c : Catalog} (draws : DrawsOn c x)
    (closed : ∀ owner ∈ names, ∀ d ∈ c.instance? owner, ∀ p ∈ d.properties,
      ∀ name ∈ displayName? p.type, name ∈ names) : x.ClosedNames names := by
  rintro type d ⟨template, arguments, asked, rfl⟩ member p listed e ⟨_, _, further, rfl⟩
  have made := Catalog.instance?_name (draws.instance?_of_request asked)
  have shown := Catalog.displayName?_of_instance? (draws.instance?_of_request further)
  exact closed _ member _ made p listed _ shown

/-- Let a finite set of names hold the instance that the type refers to, if there is one, and with
each instance those that its properties refer to. From any state the call ends: it has one outcome,
whatever bound exceeds the size of the set, and that is not the bound. -/
theorem extract_ends_of_closed (closed : x.ClosedNames names)
    (start : ∀ d, x.RefersTo type d → d.name ∈ names) :
    ∃ outcome y, outcome ≠ .error .tooDeep ∧
      ∀ depth, names.card < depth → x.extract depth type = (outcome, y) := by
  have room : (x.unbegun names).card < names.card + 1 :=
    Nat.lt_succ_of_le (Finset.card_filter_le _ _)
  have finished := extract_ne_tooDeep closed start room
  exact ⟨_, _, finished, fun depth enough => extract_of_le enough finished⟩

/-- Knots and loops that refer to each other, and to themselves with their arguments swapped. -/
def knotsOfLoops : List Definition := [
  { name := "Knot".toList
    parameters := ["A".toList, "B".toList]
    properties := [.new "back".toList "Knot<B, A>[]".toList true [],
      .new "loop".toList "Loop<A, B>".toList true []] },
  { name := "Loop".toList
    parameters := ["A".toList, "B".toList]
    properties := [.new "own".toList "Loop< A,B >".toList true [],
      .new "knot".toList "Knot<A, B>".toList true []] }]

/-- The names of the knots and loops over two arguments. -/
def knotNames : Finset Text :=
  {"Knot<X, Y>".toList, "Knot<Y, X>".toList, "Loop<X, Y>".toList, "Loop<Y, X>".toList}

/-- Four names are enough for all that a knot comes to. -/
theorem extract_ends_of_closed_knot :
    ∃ x y, ofDefinitions knotsOfLoops = .ok x ∧ x.ClosedNames knotNames ∧
      (∀ d, x.RefersTo "Knot<X,Y>[]".toList d → d.name ∈ knotNames) ∧
      y.registry.keys = ["Loop<Y, X>".toList, "Knot<Y, X>".toList, "Loop<X, Y>".toList,
        "Knot<X, Y>".toList] ∧
      ∀ depth, 4 < depth → x.extract depth "Knot<X,Y>[]".toList = (.ok (), y) := by
  have runs : (ofDefinitions knotsOfLoops).toOption.any (fun start => decide (
      (start.extract 5 "Knot<X,Y>[]".toList).1 = .ok () ∧
      (start.extract 5 "Knot<X,Y>[]".toList).2.registry.keys = ["Loop<Y, X>".toList,
        "Knot<Y, X>".toList, "Loop<X, Y>".toList, "Knot<X, Y>".toList])) = true := by
    decide +kernel
  obtain ⟨x, found, runs⟩ := (Option.any_eq_true ..).1 runs
  obtain ⟨done, keys⟩ := of_decide_eq_true runs
  have started := toOption_eq_some_iff.1 found
  have draws := drawsOn_ofDefinitions started
  have closed : x.ClosedNames knotNames := closedNames_of_drawsOn draws (by decide +kernel)
  have start : ∀ d, x.RefersTo "Knot<X,Y>[]".toList d → d.name ∈ knotNames := by
    rintro d ⟨template, arguments, asked, rfl⟩
    have shown := Catalog.displayName?_of_instance? (draws.instance?_of_request asked)
    have known : ∀ name ∈ displayName? "Knot<X,Y>[]".toList, name ∈ knotNames := by decide +kernel
    exact known _ shown
  obtain ⟨outcome, y, -, ends⟩ := extract_ends_of_closed closed start
  have four : knotNames.card = 4 := by decide +kernel
  rw [four] at ends
  rw [ends 5 (by decide)] at done keys
  subst done
  exact ⟨x, y, started, closed, start, keys, ends⟩

end Expander

/-! ## Expansions -/

theorem expandAll_of_le {definitions : List Definition} {types : List Text} {depth more : Nat}
    (le : depth ≤ more) (finished : expandAll depth definitions types ≠ .error .tooDeep) :
    expandAll more definitions types = expandAll depth definitions types := by
  cases started : Expander.ofDefinitions definitions with
  | error e =>
    rw [expandAll, expandAll, started]
    rfl
  | ok x =>
    rw [expandAll, started] at finished
    rw [expandAll, expandAll, started]
    have extracted : x.extractAll depth types ≠ .error .tooDeep := by
      intro deep
      apply finished
      show (do return (← x.extractAll depth types).registry.definitions) = _
      rw [deep]
      rfl
    show (do return (← x.extractAll more types).registry.definitions) = _
    rw [Expander.extractAll_of_le le extracted]
    rfl

/-- An expansion that does not run into the bound comes to the same with any larger one. -/
theorem Document.expand_of_le {d : Document} {depth more : Nat} (le : depth ≤ more)
    (finished : d.expand depth ≠ .error .tooDeep) : d.expand more = d.expand depth := by
  cases checked : d.checkTypes with
  | error e =>
    rw [expand, expand, checked]
    rfl
  | ok =>
    rw [expand, checked] at finished
    rw [expand, expand, checked]
    exact expandAll_of_le le finished

end ApiSchema
