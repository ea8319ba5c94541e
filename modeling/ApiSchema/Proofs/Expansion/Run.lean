import ApiSchema.Proofs.Expansion.Catalog

/-!
# Successful extractions

A call of `Expander.extract` that succeeds appends instances to the registry, each fit for its
place when it comes in (`Fits`): its name is new and not in progress, it is wanted by what was asked
for, and every instance that it needs is there already, is itself, is in progress further up, or
needs it in turn. `Serves` says what the whole call does: beside such growth, what was asked for and
what new instances need is registered or in progress at the end. It composes, so one induction on
the depth and one on the properties give `serves_of_extract`.
-/

namespace ApiSchema

open Relation

variable {c : Catalog}

/-! ## Growth of the registry -/

/-- The instance `d` may come next, when `roots` are asked for and `pending` are in progress. -/
structure Fits (c : Catalog) (roots : Text → Prop) (pending : List Text) (r : Registry)
    (d : ConcreteDefinition) : Prop where
  fresh : d.name ∉ r.keys
  idle : d.name ∉ pending
  made : c.instance? d.name = some d
  wanted : ∃ root, roots root ∧ ReflTransGen c.Needs root d.name
  ordered : ∀ name, c.Needs d.name name → name ∈ r.keys ∨ name = d.name ∨ name ∈ pending ∨
    TransGen c.Needs name d.name

/-- One instance that fits is appended. -/
def Adds (c : Catalog) (roots : Text → Prop) (pending : List Text) (r s : Registry) : Prop :=
  ∃ d, Fits c roots pending r d ∧ s = Dict.insert r d.name d

/-- Instances that fit are appended one after the other. -/
abbrev Grows (c : Catalog) (roots : Text → Prop) (pending : List Text) :
    Registry → Registry → Prop :=
  ReflTransGen (Adds c roots pending)

variable {roots : Text → Prop} {pending : List Text} {r s : Registry}

theorem keys_insert_of_fresh {d : ConcreteDefinition} (fresh : d.name ∉ r.keys) :
    (Dict.insert r d.name d).keys = r.keys ++ [d.name] := by
  rw [Dict.keys_insert, if_neg fresh]

theorem Grows.keys_subset (grows : Grows c roots pending r s) :
    ∀ name ∈ r.keys, name ∈ s.keys := by
  induction grows with
  | refl => exact fun name member => member
  | tail _ step ih =>
    obtain ⟨d, fits, rfl⟩ := step
    intro name member
    rw [keys_insert_of_fresh fits.fresh]
    exact List.mem_append_left _ (ih name member)

/-- Nothing that is in progress comes in. -/
theorem Grows.not_mem_keys (grows : Grows c roots pending r s) {name : Text}
    (waiting : name ∈ pending) (absent : name ∉ r.keys) : name ∉ s.keys := by
  induction grows with
  | refl => exact absent
  | tail _ step ih =>
    obtain ⟨d, fits, rfl⟩ := step
    rw [keys_insert_of_fresh fits.fresh, List.mem_append, not_or, List.mem_singleton]
    refine ⟨ih, ?_⟩
    rintro rfl
    exact fits.idle waiting

theorem Grows.mono {roots' : Text → Prop} (wider : ∀ name, roots name → roots' name)
    (grows : Grows c roots pending r s) : Grows c roots' pending r s := by
  refine ReflTransGen.mono ?_ _ _ grows
  rintro r s ⟨d, fits, rfl⟩
  obtain ⟨root, asked, reach⟩ := fits.wanted
  exact ⟨d, ⟨fits.fresh, fits.idle, fits.made, ⟨root, wider root asked, reach⟩, fits.ordered⟩, rfl⟩

/-- What grows below an instance in progress, on behalf of what it needs, grows on its behalf. -/
theorem Grows.lift {owner : Text}
    (grows : Grows c (c.Needs owner) (owner :: pending) r s) :
    Grows c (owner = ·) pending r s := by
  refine ReflTransGen.mono ?_ _ _ grows
  rintro r s ⟨d, fits, rfl⟩
  obtain ⟨root, need, reach⟩ := fits.wanted
  have above : TransGen c.Needs owner d.name := TransGen.head' need reach
  refine ⟨d, ⟨fits.fresh, fun member => fits.idle (List.mem_cons_of_mem _ member), fits.made,
    ⟨owner, rfl, above.to_reflTransGen⟩, fun name need => ?_⟩, rfl⟩
  -- a need that is in progress is the owner, which needs `d` in turn, or is further up
  rcases fits.ordered name need with known | self | waiting | back
  · exact Or.inl known
  · exact Or.inr (Or.inl self)
  · rcases List.mem_cons.1 waiting with rfl | further
    · exact Or.inr (Or.inr (Or.inr above))
    · exact Or.inr (Or.inr (Or.inl further))
  · exact Or.inr (Or.inr (Or.inr back))

/-! ## States of an expansion -/

/-- A state of an expansion against the catalog: every registered name is a plain definition's or
its own display name. -/
structure Follows (c : Catalog) (x : Expander) : Prop where
  templates : ∀ name, x.templates.get? name = c.template? name
  plain : ∀ name ∈ c.plain, name ∈ x.registry.keys
  shown : ∀ name ∈ x.registry.keys, name ∈ c.plain ∨ displayName? name = some name

/-- What a successful call does that is asked for `roots`. -/
structure Serves (c : Catalog) (roots : Text → Prop) (x y : Expander) : Prop where
  templates : y.templates = x.templates
  inProgress : y.inProgress = x.inProgress
  grows : Grows c roots x.inProgress x.registry y.registry
  settled : ∀ name, roots name → name ∈ y.registry.keys ∨ name ∈ x.inProgress
  closed : ∀ owner ∈ y.registry.keys, owner ∈ x.registry.keys ∨
    ∀ name, c.Needs owner name → name ∈ y.registry.keys ∨ name ∈ x.inProgress

variable {x y z : Expander}

theorem Grows.shown (grows : Grows c roots pending r s)
    (before : ∀ name ∈ r.keys, name ∈ c.plain ∨ displayName? name = some name) :
    ∀ name ∈ s.keys, name ∈ c.plain ∨ displayName? name = some name := by
  induction grows with
  | refl => exact before
  | tail _ step ih =>
    obtain ⟨d, fits, rfl⟩ := step
    intro name member
    rw [keys_insert_of_fresh fits.fresh] at member
    rcases List.mem_append.1 member with member | member
    · exact ih name member
    · rw [List.mem_singleton.1 member]
      exact Or.inr (Catalog.displayName?_of_instance? fits.made)

theorem Serves.follows (serves : Serves c roots x y) (follows : Follows c x) : Follows c y where
  templates name := by rw [serves.templates, follows.templates]
  plain name member := serves.grows.keys_subset name (follows.plain name member)
  shown := serves.grows.shown follows.shown

theorem Serves.refl (settled : ∀ name, roots name → name ∈ x.registry.keys ∨ name ∈ x.inProgress) :
    Serves c roots x x where
  templates := rfl
  inProgress := rfl
  grows := .refl
  settled := settled
  closed _ member := Or.inl member

theorem Serves.trans {roots' : Text → Prop} (first : Serves c roots x y)
    (second : Serves c roots' y z) : Serves c (fun name => roots name ∨ roots' name) x z where
  templates := second.templates.trans first.templates
  inProgress := second.inProgress.trans first.inProgress
  grows := by
    have later := second.grows
    rw [first.inProgress] at later
    exact (first.grows.mono fun _ => Or.inl).trans (later.mono fun _ => Or.inr)
  settled := by
    rintro name (asked | asked)
    · exact (first.settled name asked).imp_left (second.grows.keys_subset name)
    · rw [← first.inProgress]
      exact second.settled name asked
  closed := by
    intro owner member
    rcases second.closed owner member with earlier | served
    · rcases first.closed owner earlier with known | served
      · exact Or.inl known
      · exact Or.inr fun name need => (served name need).imp_left (second.grows.keys_subset name)
    · rw [first.inProgress] at served
      exact Or.inr served

theorem Serves.congr {roots' : Text → Prop} (same : ∀ name, roots name ↔ roots' name)
    (serves : Serves c roots x y) : Serves c roots' x y := by
  have equal : roots = roots' := funext fun name => propext (same name)
  exact equal ▸ serves

/-! ## The recursion -/

namespace Expander

theorem request_eq_none {type : Text} (asked : x.request type = .ok none) :
    genericUse? type = none := by
  unfold request at asked
  obtain ⟨t, parsed, outcome⟩ := bind_eq_ok_iff.1 asked
  simp only [genericUse?, parsed, TypeExpr.genericUse?]
  split at outcome
  · rename_i object
    rw [object]
  · rename_i object
    rw [object]
  · split at outcome
    · cases outcome
    · split at outcome <;> cases outcome

theorem request_eq_some {type : Text} {template : Template} {arguments : List Text}
    (asked : x.request type = .ok (some (template, arguments))) :
    ∃ head, genericUse? type = some (head, arguments) ∧ x.templates.get? head = some template ∧
      arguments.length = template.placeholders.length := by
  unfold request at asked
  obtain ⟨t, parsed, outcome⟩ := bind_eq_ok_iff.1 asked
  simp only [genericUse?, parsed, TypeExpr.genericUse?]
  split at outcome
  · cases outcome
  · cases outcome
  · rename_i head trees nonempty object
    split at outcome
    · cases outcome
    · rename_i found
      split at outcome
      · cases outcome
      · rename_i arity
        cases outcome
        refine ⟨head, ?_, found, by simpa using arity⟩
        rw [object]
        cases trees with
        | nil => exact (nonempty rfl).elim
        | cons a trees => rfl

/-- What a successful call does: nothing, or an instance behind what its properties ask for. -/
theorem extract_eq_ok {depth : Nat} {type : Text}
    (run : x.extract (depth + 1) type = (.ok (), y)) :
    (x.request type = .ok none ∧ y = x) ∨
      ∃ template arguments, x.request type = .ok (some (template, arguments)) ∧
        ((x.isKnown (template.instanceName arguments) = true ∧ y = x) ∨
          (x.isKnown (template.instanceName arguments) = false ∧
            ∃ z, visit (extract depth) (x.begin (template.instanceName arguments))
                (template.instantiate arguments).properties = (.ok (), z) ∧
              y = z.complete (template.instantiate arguments))) := by
  rw [extract] at run
  split at run
  · cases run
  · rename_i asked
    cases run
    exact Or.inl ⟨asked, rfl⟩
  · rename_i template arguments asked
    refine Or.inr ⟨template, arguments, asked, ?_⟩
    dsimp only at run
    split at run
    · rename_i known
      cases run
      exact Or.inl ⟨known, rfl⟩
    · rename_i fresh
      split at run
      · rename_i z visited
        cases run
        exact Or.inr ⟨by simpa using fresh, z, visited, rfl⟩
      · rename_i stopped other
        rw [run] at other
        exact (other y rfl).elim

theorem isKnown_eq_true_iff {name : Text} :
    x.isKnown name = true ↔ name ∈ x.registry.keys ∨ name ∈ x.inProgress := by
  rw [isKnown, Bool.or_eq_true, Dict.contains_eq_true_iff, List.contains_iff_mem]

end Expander

/-- A property whose type is literally the name of an instance is served by that instance. -/
theorem Follows.asked_registered (follows : Follows c x) {p : Property}
    (registered : p.type ∈ x.registry.keys) {name : Text} (free : p.type ∉ c.plain)
    (shown : displayName? p.type = some name) : name ∈ x.registry.keys := by
  have own := (follows.shown p.type registered).resolve_left free
  rw [own] at shown
  cases shown
  exact registered

theorem serves_of_visit {step : Expander → Text → Except Stop Unit × Expander}
    (spec : ∀ {x y : Expander} {type : Text}, Follows c x → step x type = (.ok (), y) →
      Serves c (fun name => displayName? type = some name) x y)
    {properties : List Property} (follows : Follows c x)
    (run : Expander.visit step x properties = (.ok (), y)) :
    Serves c (c.Asked properties) x y := by
  induction properties generalizing x with
  | nil =>
    cases run
    refine Serves.refl fun name asked => ?_
    obtain ⟨p, member, -⟩ := asked
    cases member
  | cons p properties ih =>
    have asked_cons : ∀ name, (p.type ∉ c.plain ∧ displayName? p.type = some name) ∨
        c.Asked properties name ↔ c.Asked (p :: properties) name := by
      intro name
      simp only [Catalog.Asked, List.mem_cons, exists_eq_or_imp]
    rw [Expander.visit] at run
    split at run
    · rename_i registered
      have registered := Dict.contains_eq_true_iff.1 registered
      have first : Serves c (fun name => p.type ∉ c.plain ∧ displayName? p.type = some name) x x :=
        Serves.refl fun name asked =>
          Or.inl (follows.asked_registered registered asked.1 asked.2)
      exact (first.trans (ih follows run)).congr asked_cons
    · rename_i unregistered
      have free : p.type ∉ c.plain := fun taken =>
        unregistered (Dict.contains_eq_true_iff.2 (follows.plain p.type taken))
      split at run
      · rename_i z stepped
        have first := spec follows stepped
        have later := ih (first.follows follows) run
        refine (first.trans later).congr fun name => ?_
        rw [← asked_cons]
        exact or_congr_left ⟨fun shown => ⟨free, shown⟩, fun asked => asked.2⟩
      · rename_i stopped other
        rw [run] at other
        exact (other y rfl).elim

theorem Follows.begin (follows : Follows c x) (name : Text) : Follows c (x.begin name) :=
  ⟨follows.templates, follows.plain, follows.shown⟩

theorem insertIfAbsent_of_fresh {d : ConcreteDefinition} (fresh : d.name ∉ r.keys) :
    (r.insertIfAbsent d).2 = Dict.insert r d.name d := by
  have absent : ¬ Dict.contains r d.name = true := fun present =>
    fresh (Dict.contains_eq_true_iff.1 present)
  rw [Registry.insertIfAbsent, if_neg absent]

/-- An instance is completed behind what its properties ask for. -/
theorem serves_complete {name : Text} {d : ConcreteDefinition} (follows : Follows c x)
    (unknown : x.isKnown name = false) (made : c.instance? name = some d) (named : d.name = name)
    (below : Serves c (c.Asked d.properties) (x.begin name) y) :
    Serves c (name = ·) x (y.complete d) := by
  subst named
  have absent : d.name ∉ x.registry.keys ∧ d.name ∉ x.inProgress := by
    rw [← not_or, ← Expander.isKnown_eq_true_iff, unknown]
    exact Bool.false_ne_true
  have free : d.name ∉ c.plain := fun taken => absent.1 (follows.plain d.name taken)
  have serves : Serves c (c.Needs d.name) (x.begin d.name) y :=
    below.congr fun name => (Catalog.needs_iff_asked free made).symm
  have waiting : d.name ∈ (x.begin d.name).inProgress := List.mem_cons_self ..
  have fresh : d.name ∉ y.registry.keys := serves.grows.not_mem_keys waiting absent.1
  have registry : (y.complete d).registry = Dict.insert y.registry d.name d :=
    insertIfAbsent_of_fresh fresh
  have keys : (y.complete d).registry.keys = y.registry.keys ++ [d.name] := by
    rw [registry, keys_insert_of_fresh fresh]
  -- what is in progress below is `d` itself, now registered, or in progress at the call
  have pass : ∀ name, name ∈ y.registry.keys ∨ name ∈ (x.begin d.name).inProgress →
      name ∈ (y.complete d).registry.keys ∨ name ∈ x.inProgress := by
    intro name reached
    rw [keys, List.mem_append, List.mem_singleton]
    rcases reached with known | pending
    · exact Or.inl (Or.inl known)
    · rcases List.mem_cons.1 pending with self | further
      · exact Or.inl (Or.inr self)
      · exact Or.inr further
  refine ⟨serves.templates, ?_, ?_, ?_, ?_⟩
  · show y.inProgress.erase d.name = x.inProgress
    rw [serves.inProgress]
    exact List.erase_cons_head ..
  · have last : Fits c (d.name = ·) x.inProgress y.registry d := by
      refine ⟨fresh, absent.2, made, ⟨d.name, rfl, .refl⟩, fun name need => ?_⟩
      rcases serves.settled name need with known | pending
      · exact Or.inl known
      · rcases List.mem_cons.1 pending with self | further
        · exact Or.inr (Or.inl self)
        · exact Or.inr (Or.inr (Or.inl further))
    exact serves.grows.lift.tail ⟨d, last, registry⟩
  · rintro name rfl
    rw [keys]
    exact Or.inl (List.mem_append_right _ (List.mem_singleton_self _))
  · intro owner member
    rw [keys] at member
    rcases List.mem_append.1 member with member | member
    · rcases serves.closed owner member with known | served
      · exact Or.inl known
      · exact Or.inr fun name need => pass name (served name need)
    · rw [List.mem_singleton.1 member]
      exact Or.inr fun name need => pass name (serves.settled name need)

/-- A call that succeeds serves what its type refers to. -/
theorem serves_of_extract {depth : Nat} {type : Text} (follows : Follows c x)
    (run : x.extract depth type = (.ok (), y)) :
    Serves c (fun name => displayName? type = some name) x y := by
  induction depth generalizing x y type with
  | zero => cases run
  | succ depth ih =>
    rcases Expander.extract_eq_ok run with ⟨asked, rfl⟩ | ⟨template, arguments, asked, outcome⟩
    · refine Serves.refl fun name shown => ?_
      rw [displayName?, Expander.request_eq_none asked] at shown
      cases shown
    · obtain ⟨head, use, found, arity⟩ := Expander.request_eq_some asked
      rw [follows.templates] at found
      have named : template.instanceName arguments = genericText head arguments :=
        Catalog.name_instantiate found
      have root : ∀ name, template.instanceName arguments = name ↔
          displayName? type = some name := by
        intro name
        rw [displayName?, use, named]
        simp
      rcases outcome with ⟨known, rfl⟩ | ⟨unknown, z, visited, rfl⟩
      · refine Serves.refl fun name shown => ?_
        rw [← (root name).2 shown]
        exact Expander.isKnown_eq_true_iff.1 known
      · have made : c.instance? (template.instanceName arguments) =
            some (template.instantiate arguments) := by
          rw [named]
          exact Catalog.instance?_genericText use found arity
        have below := serves_of_visit ih (follows.begin _) visited
        exact (serves_complete follows unknown made rfl below).congr root

theorem serves_of_extractAll {depth : Nat} {types : List Text} (follows : Follows c x)
    (run : x.extractAll depth types = .ok y) :
    Serves c (fun name => ∃ type ∈ types, displayName? type = some name) x y := by
  induction types generalizing x with
  | nil =>
    cases run
    refine Serves.refl fun name asked => ?_
    obtain ⟨type, member, -⟩ := asked
    cases member
  | cons type types ih =>
    rw [Expander.extractAll] at run
    split at run
    · rename_i z extracted
      have first := serves_of_extract follows extracted
      refine (first.trans (ih (first.follows follows) run)).congr fun name => ?_
      simp only [List.mem_cons, exists_eq_or_imp]
    · cases run

end ApiSchema
