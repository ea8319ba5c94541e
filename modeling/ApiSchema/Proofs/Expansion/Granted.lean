import Mathlib.Data.List.Perm.Subperm
import ApiSchema.Proofs.Expansion.Closure
import ApiSchema.Proofs.Expansion.Failure

/-!
# When an expansion succeeds

An expansion that succeeds has granted every type that can be reached from the given ones
(`grants_of_expandAll`): `Settled` says so of the properties of all registered instances, and each
call keeps it. Conversely an expansion fails only at a reached type that is not granted, or where
as many instances as the bound allows stand inside of each other, so it succeeds if every reached
type is granted and the bound exceeds the number of demanded instances (`expandAll_of_granted`).
Neither side speaks of the order in which types are looked at.
-/

namespace ApiSchema

open Relation

variable {c : Catalog} {x y : Expander} {types : List Text}

/-! ## Granted types and requests -/

theorem DrawsOn.grants_of_request (draws : DrawsOn c x) {type : Text}
    {use : Option (Template × List Text)} (asked : x.request type = .ok use) : c.Grants type := by
  cases use with
  | some use => exact Catalog.grants_of_instance? (draws.instance?_of_request asked)
  | none =>
    refine ⟨?_, fun name shown => ?_⟩
    · rw [Expander.request_eq] at asked
      cases parsed : TypeExpr.parse type with
      | error e =>
        rw [parsed] at asked
        cases asked
      | ok t => exact check_eq_ok_iff.2 ⟨t, parsed⟩
    · rw [displayName?, Expander.request_eq_none asked] at shown
      cases shown

theorem DrawsOn.exists_request_of_grants (draws : DrawsOn c x) {type : Text}
    (granted : c.Grants type) : ∃ use, x.request type = .ok use := by
  obtain ⟨t, parsed⟩ := check_eq_ok_iff.1 granted.formed
  rw [Expander.request_eq, parsed]
  dsimp only
  cases use : t.element.genericUse? with
  | none => exact ⟨none, rfl⟩
  | some use' =>
    obtain ⟨head, arguments⟩ := use'
    have used : genericUse? type = some (head, arguments) :=
      genericUse?_eq_some_iff.2 ⟨t, parsed, use⟩
    obtain ⟨d, made⟩ := granted.served _ (displayName?_eq_some_iff.2 ⟨_, _, used, rfl⟩)
    obtain ⟨_, _, template, used', found, arity, -⟩ := Catalog.instance?_eq_some_iff.1 made
    rw [used] at used'
    cases used'
    refine ⟨some (template, arguments), ?_⟩
    simp only [draws.templates, found, arity, ne_eq, not_true_eq_false, if_false]

/-! ## Success grants what is reached -/

/-- The definition is the instance of its name, and the types of its properties are granted. -/
structure Catalog.Proper (c : Catalog) (d : ConcreteDefinition) : Prop where
  made : c.instance? d.name = some d
  granted : ∀ p ∈ d.properties, p.type ∉ c.plain → c.Grants p.type

/-- All registered definitions but the plain ones are proper instances. -/
structure Settled (c : Catalog) (r : Registry) : Prop where
  keyed : r.Keyed
  proper : ∀ d ∈ r.definitions, d.name ∉ c.plain → c.Proper d

namespace Settled

variable {r : Registry}

theorem grants_of_registered (settled : Settled c r) {type : Text} (registered : type ∈ r.keys)
    (free : type ∉ c.plain) : c.Grants type := by
  obtain ⟨d, member, rfl⟩ := settled.keyed.mem_keys_iff.1 registered
  exact Catalog.grants_of_instance? (settled.proper d member free).made

theorem insertIfAbsent (settled : Settled c r) {d : ConcreteDefinition} (proper : c.Proper d) :
    Settled c (r.insertIfAbsent d).2 := by
  refine ⟨settled.keyed.insertIfAbsent d, fun e member free => ?_⟩
  rcases Registry.mem_definitions_of_insertIfAbsent member with before | rfl
  · exact settled.proper e before free
  · exact proper

end Settled

namespace Expander

theorem settled_of_visits {depth : Nat} {properties : List Property}
    (spec : ∀ {x y : Expander} {type : Text}, DrawsOn c x → Settled c x.registry →
      x.extract depth type = (.ok (), y) → c.Grants type ∧ Settled c y.registry)
    (draws : DrawsOn c x) (settled : Settled c x.registry)
    (visits : Visits (extract depth) x properties y) :
    (∀ p ∈ properties, p.type ∉ c.plain → c.Grants p.type) ∧ Settled c y.registry := by
  induction visits with
  | nil => exact ⟨by simp, settled⟩
  | skip registered _ ih =>
    obtain ⟨granted, after⟩ := ih draws settled
    exact ⟨List.forall_mem_cons.2 ⟨settled.grants_of_registered registered, granted⟩, after⟩
  | enter _ stepped _ ih =>
    obtain ⟨own, between⟩ := spec draws settled stepped
    obtain ⟨granted, after⟩ := ih ((continues_of_extract_ok stepped).1.drawsOn draws) between
    exact ⟨List.forall_mem_cons.2 ⟨fun _ => own, granted⟩, after⟩

/-- A call that succeeds has granted its type, and the registered instances stay proper. -/
theorem settled_of_extract {depth : Nat} {type : Text} (draws : DrawsOn c x)
    (settled : Settled c x.registry) (run : x.extract depth type = (.ok (), y)) :
    c.Grants type ∧ Settled c y.registry := by
  induction depth generalizing x y type with
  | zero => cases run
  | succ depth ih =>
    rcases extract_eq_ok run with ⟨asked, rfl⟩ | ⟨template, arguments, asked, outcome⟩
    · exact ⟨draws.grants_of_request asked, settled⟩
    · refine ⟨draws.grants_of_request asked, ?_⟩
      rcases outcome with ⟨-, rfl⟩ | ⟨unknown, z, visited, rfl⟩
      · exact settled
      · -- the marked instance is not registered yet, so nothing is asked of it until it is complete
        have begun := (continues_begin unknown).drawsOn draws
        obtain ⟨granted, below⟩ :=
          settled_of_visits ih begun settled (visits_of_visit visited)
        have made := Catalog.instance?_name (draws.instance?_of_request asked)
        exact below.insertIfAbsent ⟨made, granted⟩

theorem settled_of_extractAll {depth : Nat} (draws : DrawsOn c x) (settled : Settled c x.registry)
    (run : x.extractAll depth types = .ok y) :
    (∀ type ∈ types, c.Grants type) ∧ Settled c y.registry := by
  induction types generalizing x with
  | nil =>
    cases run
    exact ⟨by simp, settled⟩
  | cons type types ih =>
    rw [extractAll] at run
    split at run
    · rename_i z extracted
      obtain ⟨own, between⟩ := settled_of_extract draws settled extracted
      obtain ⟨granted, after⟩ :=
        ih ((continues_of_extract_ok extracted).1.drawsOn draws) between run
      exact ⟨List.forall_mem_cons.2 ⟨own, granted⟩, after⟩
    · cases run

end Expander

theorem settled_ofDefinitions {definitions : List Definition}
    (started : Expander.ofDefinitions definitions = .ok x) :
    Settled (Catalog.ofDefinitions definitions) x.registry := by
  obtain ⟨-, names, -, keyed, -⟩ := Expander.ofDefinitions_eq_ok started
  refine ⟨keyed, fun d member free => ?_⟩
  exact (free ((names d.name).1 (keyed.mem_keys_iff.2 ⟨d, member, rfl⟩))).elim

theorem expandAll_eq_ok_iff {depth : Nat} {definitions : List Definition}
    {out : List ConcreteDefinition} :
    expandAll depth definitions types = .ok out ↔
      ∃ x y, Expander.ofDefinitions definitions = .ok x ∧ x.extractAll depth types = .ok y ∧
        y.registry.definitions = out := by
  simp only [expandAll, bind_eq_ok_iff, mapError_eq_ok_iff, pure, Except.pure, Except.ok.injEq]
  constructor
  · rintro ⟨x, started, y, extracted, same⟩
    exact ⟨x, y, started, extracted, same⟩
  · rintro ⟨x, y, started, extracted, same⟩
    exact ⟨x, started, y, extracted, same⟩

/-- An instance that is demanded is put out. -/
theorem Expansion.mem_of_demanded {plain instances : List ConcreteDefinition}
    (expansion : Expansion c types plain instances) {d : ConcreteDefinition}
    (made : c.instance? d.name = some d) (demanded : c.Demanded types d.name) :
    d ∈ instances := by
  obtain ⟨e, member, named⟩ := List.mem_map.1 ((expansion.mem_iff_demanded d.name).2 demanded)
  have same := expansion.made e member
  rw [named, made] at same
  rwa [Option.some.inj same]

/-- Where an expansion succeeds, every type that can be reached is granted. -/
theorem grants_of_expandAll {depth : Nat} {definitions : List Definition}
    {out : List ConcreteDefinition} (expanded : expandAll depth definitions types = .ok out)
    {type : Text} (reached : (Catalog.ofDefinitions definitions).Reached types type) :
    (Catalog.ofDefinitions definitions).Grants type := by
  obtain ⟨instances, split, expansion⟩ := exists_expansion expanded
  obtain ⟨x, y, started, extracted, rfl⟩ := expandAll_eq_ok_iff.1 expanded
  obtain ⟨granted, settled⟩ := Expander.settled_of_extractAll (drawsOn_ofDefinitions started)
    (settled_ofDefinitions started) extracted
  obtain ⟨given, member, calls⟩ := reached
  cases calls with
  | refl => exact granted type member
  | @tail caller _ before call =>
    -- the caller's instance is demanded, so it is registered and its properties are granted
    obtain ⟨d, made, free, ⟨p, listed, rfl⟩, unnamed⟩ := call
    have demanded := Catalog.Reached.demanded ⟨given, member, before⟩
      (Catalog.displayName?_of_instance? made) free
    have instanced := expansion.mem_of_demanded (Catalog.instance?_name made) demanded
    have registered : d ∈ y.registry.definitions := by
      rw [split]
      exact List.mem_append_right _ instanced
    exact (settled.proper d registered free).granted p listed unnamed

/-! ## What is granted does not fail -/

/-- Where all that a call can reach is granted, it only stops if the bound does not exceed the
number of demanded instances. -/
theorem Expander.eq_tooDeep_of_granted {depth : Nat} {type : Text} {names : List Text} {stop : Stop}
    (draws : DrawsOn c x) (reached : c.Reached types type)
    (granted : ∀ type, c.Reached types type → c.Grants type)
    (finite : ∀ name, c.Demanded types name → name ∈ names)
    (run : x.extract depth type = (.error stop, y)) : stop = .tooDeep ∧ depth ≤ names.length := by
  obtain ⟨inner, last, stops⟩ := exists_stopsAt draws run
  rcases stops.cause with ⟨deep, length⟩ | ⟨e, -, refused⟩
  · have subset : inner ⊆ names := fun name member =>
      finite name (stops.leads.demanded reached name member)
    have fits := (List.subperm_of_subset stops.nodup subset).length_le
    rw [length] at fits
    exact ⟨deep, fits⟩
  · obtain ⟨given, member, calls⟩ := reached
    have lastReached : c.Reached types last := ⟨given, member, calls.trans stops.leads.calls⟩
    obtain ⟨use, asked⟩ := draws.exists_request_of_grants (granted last lastReached)
    rw [asked] at refused
    cases refused

theorem Expander.extractAll_of_granted {depth : Nat} {names : List Text} (draws : DrawsOn c x)
    (granted : ∀ type, c.Reached types type → c.Grants type)
    (finite : ∀ name, c.Demanded types name → name ∈ names) :
    (∃ y, x.extractAll depth types = .ok y) ∨
      x.extractAll depth types = .error .tooDeep ∧ depth ≤ names.length := by
  cases run : x.extractAll depth types with
  | ok y => exact .inl ⟨y, rfl⟩
  | error stop =>
    obtain ⟨type, member, z, y, drawsThere, stopped⟩ := extractAll_eq_error draws run
    obtain ⟨rfl, bound⟩ :=
      eq_tooDeep_of_granted drawsThere ⟨type, member, .refl⟩ granted finite stopped
    exact .inr ⟨rfl, bound⟩

/-- If all that can be reached is granted, an expansion succeeds with any bound above the number of
demanded instances, and with a lower one it does so or runs into the bound. -/
theorem expandAll_of_granted {depth : Nat} {definitions : List Definition} {names : List Text}
    (started : Expander.ofDefinitions definitions = .ok x)
    (granted : ∀ type, (Catalog.ofDefinitions definitions).Reached types type →
      (Catalog.ofDefinitions definitions).Grants type)
    (finite : ∀ name, (Catalog.ofDefinitions definitions).Demanded types name → name ∈ names) :
    (∃ out, expandAll depth definitions types = .ok out) ∨
      expandAll depth definitions types = .error .tooDeep ∧ depth ≤ names.length := by
  rcases Expander.extractAll_of_granted (drawsOn_ofDefinitions started) granted finite with
    ⟨y, extracted⟩ | ⟨stopped, bound⟩
  · exact .inl ⟨y.registry.definitions, expandAll_eq_ok_iff.2 ⟨x, y, started, extracted, rfl⟩⟩
  · refine .inr ⟨?_, bound⟩
    rw [expandAll, started]
    show (do return (← x.extractAll depth types).registry.definitions) = _
    rw [stopped]
    rfl

end ApiSchema
