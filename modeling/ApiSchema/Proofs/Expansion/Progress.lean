import ApiSchema.Proofs.Expansion.Run

/-!
# What a call does, whatever its outcome

A call of `Expander.extract` may stop in the middle and leave instances in progress, and the next
call starts from there. `Visits` is the walk over the properties of an instance up to where it
stops: `visits_of_visit` and `exists_stop_of_visit` open `Expander.visit` by it, and later proofs go
by induction on `Visits`. `Continues x y` says what every call keeps (`continues_of_extract`): the
templates, the registered definitions at their places, the marks of instances in progress, and that
nothing is both registered and in progress.

`DrawsOn c x` is what the catalog `c` has to do with a state `x`; no call changes it.
-/

namespace ApiSchema

open Relation

namespace Expander

variable {x y z : Expander}

/-! ## Requests -/

/-- A request goes by the use that the element of a type makes of a template. -/
theorem request_eq (x : Expander) (type : Text) :
    x.request type = match TypeExpr.parse type with
      | .error e => .error e
      | .ok t => match t.element.genericUse? with
        | none => .ok none
        | some (head, arguments) => match x.templates.get? head with
          | none => .error (.unknownTemplate type head)
          | some template =>
            if arguments.length ≠ template.placeholders.length then
              .error (.arityMismatch type head template.placeholders.length arguments.length)
            else .ok (some (template, arguments)) := by
  rw [request]
  cases TypeExpr.parse type with
  | error e => rfl
  | ok t =>
    simp only [bind, Except.bind, TypeExpr.genericUse?]
    rcases t.element.asObject? with _ | ⟨head, _ | ⟨argument, arguments⟩⟩
    · rfl
    · rfl
    · simp only [List.length_map]
      rfl

theorem request_congr (same : y.templates = x.templates) (type : Text) :
    y.request type = x.request type := by
  rw [request, request, same]

/-! ## Outcomes of a call -/

/-- A walk over the types of properties in which no step stops. -/
inductive Visits (step : Expander → Text → Except Stop Unit × Expander) :
    Expander → List Property → Expander → Prop
  | nil {x : Expander} : Visits step x [] x
  | skip {x y : Expander} {p : Property} {properties : List Property} :
    p.type ∈ x.registry.keys → Visits step x properties y → Visits step x (p :: properties) y
  | enter {x y z : Expander} {p : Property} {properties : List Property} :
    p.type ∉ x.registry.keys → step x p.type = (.ok (), z) → Visits step z properties y →
    Visits step x (p :: properties) y

section

variable {step : Expander → Text → Except Stop Unit × Expander} {properties : List Property}

theorem visits_of_visit (run : visit step x properties = (.ok (), y)) :
    Visits step x properties y := by
  induction properties generalizing x with
  | nil =>
    cases run
    exact .nil
  | cons p properties ih =>
    rw [visit] at run
    split at run
    · rename_i known
      exact .skip (Dict.contains_eq_true_iff.1 known) (ih run)
    · rename_i unknown
      have unregistered : p.type ∉ x.registry.keys := fun known =>
        unknown (Dict.contains_eq_true_iff.2 known)
      split at run
      · rename_i z stepped
        exact .enter unregistered stepped (ih run)
      · rename_i other
        rw [run] at other
        exact (other y rfl).elim

/-- A walk that stops does so at the first property whose step stops. -/
theorem exists_stop_of_visit {stop : Stop} (run : visit step x properties = (.error stop, y)) :
    ∃ before p after z, properties = before ++ p :: after ∧ Visits step x before z ∧
      p.type ∉ z.registry.keys ∧ step z p.type = (.error stop, y) := by
  induction properties generalizing x with
  | nil => cases run
  | cons p properties ih =>
    rw [visit] at run
    split at run
    · rename_i known
      obtain ⟨before, q, after, z, rfl, visits, rest⟩ := ih run
      exact ⟨p :: before, q, after, z, rfl, .skip (Dict.contains_eq_true_iff.1 known) visits, rest⟩
    · rename_i unknown
      have unregistered : p.type ∉ x.registry.keys := fun known =>
        unknown (Dict.contains_eq_true_iff.2 known)
      split at run
      · rename_i z stepped
        obtain ⟨before, q, after, m, rfl, visits, rest⟩ := ih run
        exact ⟨p :: before, q, after, m, rfl, .enter unregistered stepped visits, rest⟩
      · exact ⟨[], p, properties, x, rfl, .nil, unregistered, run⟩

end

/-- What a call that stops does: nothing, or an instance is begun and one of its properties
stops. -/
theorem extract_eq_error {depth : Nat} {type : Text} {stop : Stop}
    (run : x.extract (depth + 1) type = (.error stop, y)) :
    (∃ e, x.request type = .error e ∧ stop = .error e ∧ y = x) ∨
      ∃ template arguments, x.request type = .ok (some (template, arguments)) ∧
        x.isKnown (template.instanceName arguments) = false ∧
        visit (extract depth) (x.begin (template.instanceName arguments))
          (template.instantiate arguments).properties = (.error stop, y) := by
  rw [extract] at run
  split at run
  · rename_i e asked
    cases run
    exact Or.inl ⟨e, asked, rfl, rfl⟩
  · cases run
  · rename_i template arguments asked
    refine Or.inr ⟨template, arguments, asked, ?_⟩
    dsimp only at run
    split at run
    · cases run
    · rename_i fresh
      split at run
      · cases run
      · exact ⟨by simpa using fresh, run⟩

/-! ## What every call keeps -/

/-- Instances in progress are marked once each, and none of them is registered. -/
structure Orderly (x : Expander) : Prop where
  nodup : x.inProgress.Nodup
  unregistered : ∀ name ∈ x.inProgress, name ∉ x.registry.keys

/-- What every call keeps, failed or not. -/
structure Continues (x y : Expander) : Prop where
  templates : y.templates = x.templates
  entries : x.registry.entries <+: y.registry.entries
  inProgress : x.inProgress <:+ y.inProgress
  orderly : x.Orderly → y.Orderly

namespace Continues

theorem refl (x : Expander) : Continues x x :=
  ⟨rfl, List.prefix_rfl, List.suffix_rfl, id⟩

theorem trans (first : Continues x y) (second : Continues y z) : Continues x z where
  templates := second.templates.trans first.templates
  entries := first.entries.trans second.entries
  inProgress := first.inProgress.trans second.inProgress
  orderly := second.orderly ∘ first.orderly

theorem keys_subset (continues : Continues x y) : ∀ name ∈ x.registry.keys,
    name ∈ y.registry.keys :=
  fun _ member => (continues.entries.map Prod.fst).subset member

end Continues

theorem isKnown_eq_false_iff {name : Text} :
    x.isKnown name = false ↔ name ∉ x.registry.keys ∧ name ∉ x.inProgress := by
  rw [← not_or, ← isKnown_eq_true_iff, Bool.not_eq_true]

theorem continues_begin {name : Text} (unknown : x.isKnown name = false) :
    Continues x (x.begin name) := by
  obtain ⟨unregistered, idle⟩ := isKnown_eq_false_iff.1 unknown
  refine ⟨rfl, List.prefix_rfl, List.suffix_cons _ _, fun orderly => ⟨?_, ?_⟩⟩
  · exact List.nodup_cons.2 ⟨idle, orderly.nodup⟩
  · exact List.forall_mem_cons.2 ⟨unregistered, orderly.unregistered⟩

/-- An instance is completed when the instances below it are, and its mark is taken off. -/
theorem continues_complete {d : ConcreteDefinition} (unknown : x.isKnown d.name = false)
    (below : Continues (x.begin d.name) z) (same : z.inProgress = (x.begin d.name).inProgress) :
    Continues x (z.complete d) ∧ (z.complete d).inProgress = x.inProgress := by
  have marks : (z.complete d).inProgress = x.inProgress := by
    show z.inProgress.erase d.name = x.inProgress
    rw [same]
    exact List.erase_cons_head ..
  have begun := continues_begin unknown
  refine ⟨⟨below.templates, ?_, marks ▸ List.suffix_rfl, fun orderly => ?_⟩, marks⟩
  · exact (begun.entries.trans below.entries).trans
      (Registry.prefix_entries_insertIfAbsent z.registry d)
  · have waiting := below.orderly (begun.orderly orderly)
    refine ⟨marks ▸ orderly.nodup, fun name member registered => ?_⟩
    rw [marks] at member
    rcases Registry.mem_keys_insertIfAbsent.1 registered with known | rfl
    · refine waiting.unregistered name ?_ known
      rw [same]
      exact List.mem_cons_of_mem _ member
    · exact (isKnown_eq_false_iff.1 unknown).2 member

/-- What each step of a walk keeps, the walk keeps. -/
theorem Visits.continues {step : Expander → Text → Except Stop Unit × Expander}
    {properties : List Property}
    (spec : ∀ {x y : Expander} {type : Text}, step x type = (.ok (), y) →
      Continues x y ∧ y.inProgress = x.inProgress)
    (visits : Visits step x properties y) : Continues x y ∧ y.inProgress = x.inProgress := by
  induction visits with
  | nil => exact ⟨.refl _, rfl⟩
  | skip _ _ ih => exact ih
  | enter _ stepped _ ih =>
    obtain ⟨first, same⟩ := spec stepped
    exact ⟨first.trans ih.1, ih.2.trans same⟩

/-- A call goes on from where it starts, and takes off the marks that it sets if it succeeds. -/
theorem continues_of_extract {depth : Nat} {type : Text} {outcome : Except Stop Unit}
    (run : x.extract depth type = (outcome, y)) :
    Continues x y ∧ (outcome = .ok () → y.inProgress = x.inProgress) := by
  induction depth generalizing x y type outcome with
  | zero =>
    cases run
    exact ⟨.refl x, fun _ => rfl⟩
  | succ depth ih =>
    have spec : ∀ {x y : Expander} {type : Text}, x.extract depth type = (.ok (), y) →
        Continues x y ∧ y.inProgress = x.inProgress := by
      intro x y type run
      obtain ⟨continues, same⟩ := ih run
      exact ⟨continues, same rfl⟩
    cases outcome with
    | ok =>
      rcases extract_eq_ok run with ⟨-, rfl⟩ | ⟨template, arguments, -, outcome⟩
      · exact ⟨.refl _, fun _ => rfl⟩
      · rcases outcome with ⟨-, rfl⟩ | ⟨unknown, z, visited, rfl⟩
        · exact ⟨.refl _, fun _ => rfl⟩
        · obtain ⟨below, same⟩ := (visits_of_visit visited).continues spec
          obtain ⟨continues, marks⟩ :=
            continues_complete (d := template.instantiate arguments) unknown below same
          exact ⟨continues, fun _ => marks⟩
    | error stop =>
      refine ⟨?_, fun success => by cases success⟩
      rcases extract_eq_error run with ⟨-, -, -, rfl⟩ | ⟨template, arguments, -, unknown, visited⟩
      · exact .refl _
      · obtain ⟨_, p, _, z, -, visits, -, stopped⟩ := exists_stop_of_visit visited
        have begun := continues_begin unknown
        exact (begun.trans (visits.continues spec).1).trans (ih stopped).1

theorem continues_of_extract_ok {depth : Nat} {type : Text}
    (run : x.extract depth type = (.ok (), y)) : Continues x y ∧ y.inProgress = x.inProgress :=
  ⟨(continues_of_extract run).1, (continues_of_extract run).2 rfl⟩

end Expander

/-! ## States that draw on a catalog -/

/-- The templates are those of the catalog, and the names that are taken are registered. -/
structure DrawsOn (c : Catalog) (x : Expander) : Prop where
  templates : ∀ name, x.templates.get? name = c.template? name
  plain : ∀ name ∈ c.plain, name ∈ x.registry.keys

variable {c : Catalog} {x y : Expander}

theorem Expander.Continues.drawsOn (continues : Expander.Continues x y) (draws : DrawsOn c x) :
    DrawsOn c y where
  templates name := by rw [continues.templates, draws.templates]
  plain name member := continues.keys_subset name (draws.plain name member)

theorem drawsOn_ofDefinitions {definitions : List Definition}
    (started : Expander.ofDefinitions definitions = .ok x) :
    DrawsOn (Catalog.ofDefinitions definitions) x := by
  obtain ⟨templates, names, -⟩ := Expander.ofDefinitions_eq_ok started
  exact ⟨templates, fun name member => (names name).2 member⟩

/-- The instance that a call begins is the one that the catalog knows for the type. -/
theorem DrawsOn.instance?_of_request (draws : DrawsOn c x) {type : Text} {template : Template}
    {arguments : List Text} (asked : x.request type = .ok (some (template, arguments))) :
    c.instance? type = some (template.instantiate arguments) := by
  obtain ⟨head, use, found, arity⟩ := Expander.request_eq_some asked
  rw [draws.templates] at found
  exact Catalog.instance?_eq_some_iff.2 ⟨head, arguments, template, use, found, arity, rfl⟩

end ApiSchema
