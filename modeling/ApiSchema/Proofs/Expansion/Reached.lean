import ApiSchema.Proofs.Expansion.Catalog

/-!
# The types that an expansion looks at

`Catalog.Demanded` is about names of instances; here the same ground is covered by type texts.
`c.Calls type other` says that the instance that `type` refers to has a property of type `other`,
`c.Reached types` is what can be reached from `types` by such calls, and `c.Leads type names last`
keeps the instances on the way. The names that reached types display are the demanded ones
(`Reached.demanded`, `Demanded.exists_reached`).

`c.Grants type` says that nothing is wrong with the type itself: it parses, and if it refers to an
instance, that can be made.
-/

namespace ApiSchema

open Relation

namespace Catalog

variable (c : Catalog)

/-- The instance that `type` refers to has a property of type `other`. Instances and types that
bear the name of a plain definition are left out. -/
def Calls (type other : Text) : Prop :=
  ∃ d, c.instance? type = some d ∧ d.name ∉ c.plain ∧ (∃ p ∈ d.properties, p.type = other) ∧
    other ∉ c.plain

/-- The types that can be reached from the given ones. -/
def Reached (types : List Text) (type : Text) : Prop :=
  ∃ given ∈ types, ReflTransGen c.Calls given type

/-- From a type calls lead to the type `last`, through the instances `names`, the last of which
comes first. -/
inductive Leads : Text → List Text → Text → Prop
  | here (type : Text) : Leads type [] type
  | call {type other last name : Text} {names : List Text} : displayName? type = some name →
    c.Calls type other → Leads other names last → Leads type (names ++ [name]) last

/-- The type parses, and what it refers to can be made. -/
structure Grants (type : Text) : Prop where
  formed : TypeExpr.check type = .ok ()
  served : ∀ name, displayName? type = some name → ∃ d, c.instance? type = some d

variable {c}

/-! ## Instances by display name -/

theorem instance?_of_displayName? {type name : Text} (shown : displayName? type = some name) :
    c.instance? name = c.instance? type := by
  rw [instance?, instance?, genericUse?_of_displayName? shown]

/-- An instance is the one that its name refers to. -/
theorem instance?_name {type : Text} {d : ConcreteDefinition} (made : c.instance? type = some d) :
    c.instance? d.name = some d := by
  rw [instance?_of_displayName? (displayName?_of_instance? made), made]

theorem check_of_displayName? {type name : Text} (shown : displayName? type = some name) :
    TypeExpr.check type = .ok () := by
  obtain ⟨head, arguments, use, -⟩ := displayName?_eq_some_iff.1 shown
  obtain ⟨t, parsed, -⟩ := genericUse?_eq_some_iff.1 use
  exact check_eq_ok_iff.2 ⟨t, parsed⟩

theorem grants_of_instance? {type : Text} {d : ConcreteDefinition}
    (made : c.instance? type = some d) : c.Grants type :=
  ⟨check_of_displayName? (displayName?_of_instance? made), fun _ _ => ⟨d, made⟩⟩

/-! ## Reached types and demanded names -/

variable {types others : List Text}

theorem Reached.mono (subset : types ⊆ others) {type : Text} (reached : c.Reached types type) :
    c.Reached others type := by
  obtain ⟨given, member, calls⟩ := reached
  exact ⟨given, subset member, calls⟩

theorem Demanded.mono (subset : types ⊆ others) {name : Text} (demanded : c.Demanded types name) :
    c.Demanded others name := by
  induction demanded with
  | given member shown free => exact .given (subset member) shown free
  | needed _ need free ih => exact .needed ih need free

theorem Calls.displayed {type other : Text} (calls : c.Calls type other) :
    ∃ name, displayName? type = some name ∧ name ∉ c.plain ∧
      ∀ further, displayName? other = some further → c.Needs name further := by
  obtain ⟨d, made, free, ⟨p, member, rfl⟩, unnamed⟩ := calls
  refine ⟨d.name, displayName?_of_instance? made, free, fun further shown => ?_⟩
  exact ⟨free, d, instance?_name made, p, member, unnamed, shown⟩

/-- What a reached type refers to is demanded, unless a plain definition has its name. -/
theorem Reached.demanded {type name : Text} (reached : c.Reached types type)
    (shown : displayName? type = some name) (free : name ∉ c.plain) : c.Demanded types name := by
  obtain ⟨given, member, calls⟩ := reached
  induction calls generalizing name with
  | refl => exact .given member shown free
  | tail _ call ih =>
    obtain ⟨owner, displayed, unnamed, needs⟩ := call.displayed
    exact .needed (ih displayed unnamed) (needs name shown) free

theorem Demanded.exists_reached {name : Text} (demanded : c.Demanded types name) :
    ∃ type, c.Reached types type ∧ displayName? type = some name := by
  induction demanded with
  | @given type name member shown _ => exact ⟨type, ⟨type, member, .refl⟩, shown⟩
  | needed _ need _ ih =>
    obtain ⟨type, ⟨given, member, calls⟩, displayed⟩ := ih
    obtain ⟨free, d, made, p, listed, unnamed, shown⟩ := need
    rw [instance?_of_displayName? displayed] at made
    have named : d.name ∉ c.plain := by
      have same := displayName?_of_instance? made
      rw [displayed] at same
      rwa [← Option.some.inj same]
    exact ⟨p.type, ⟨given, member, calls.tail ⟨d, made, named, ⟨p, listed, rfl⟩, unnamed⟩⟩, shown⟩

/-! ## The way to a type -/

theorem Leads.calls {type last : Text} {names : List Text} (leads : c.Leads type names last) :
    ReflTransGen c.Calls type last := by
  induction leads with
  | here => exact .refl
  | call _ call _ ih => exact .head call ih

/-- The instances on the way from a reached type are demanded. -/
theorem Leads.demanded {type last : Text} {names : List Text} (leads : c.Leads type names last)
    (reached : c.Reached types type) : ∀ name ∈ names, c.Demanded types name := by
  induction leads with
  | here =>
    intro name member
    cases member
  | call shown call _ ih =>
    obtain ⟨given, member, calls⟩ := reached
    intro name listed
    rcases List.mem_append.1 listed with inner | own
    · exact ih ⟨given, member, calls.tail call⟩ name inner
    · obtain ⟨owner, displayed, unnamed, -⟩ := call.displayed
      rw [List.mem_singleton.1 own]
      rw [shown] at displayed
      rw [← Option.some.inj displayed] at unnamed
      exact Reached.demanded ⟨given, member, calls⟩ shown unnamed

end Catalog

end ApiSchema
