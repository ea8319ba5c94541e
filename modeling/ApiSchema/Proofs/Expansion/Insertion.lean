import ApiSchema.Proofs.Expansion.Failure

/-!
# What calls put into the registry

`Inserts depth x type z d` follows a call of `Expander.extract` down to where the instance `d` is
put into the registry of the state `z`, by the call itself or by one that it makes, and also on
the way to an error. All that a call adds to the registry comes in that way
(`mem_entries_of_extract`), and always under a name that is not there yet
(`Inserts.not_mem_keys`): the instance is marked until it is complete, and what is marked is not
registered. `After.registry_grows` collects what any calls, failed ones included, leave intact.
-/

namespace ApiSchema

namespace Expander

variable {x y : Expander}

/-! ## Insertions at any depth of the recursion -/

/-- A call with the type `type` in the state `x` puts the instance `d` into the registry of the
state `z`, at its own end or inside of a call that it makes for a property. -/
inductive Inserts : Nat → Expander → Text → Expander → ConcreteDefinition → Prop
  | own {depth : Nat} {x z : Expander} {type : Text} {template : Template}
    {arguments : List Text} :
    x.request type = .ok (some (template, arguments)) →
    x.isKnown (template.instanceName arguments) = false →
    Visits (extract depth) (x.begin (template.instanceName arguments))
      (template.instantiate arguments).properties z →
    Inserts (depth + 1) x type z (template.instantiate arguments)
  | inner {depth : Nat} {x w z : Expander} {type : Text} {template : Template}
    {arguments : List Text} {before after : List Property} {p : Property}
    {d : ConcreteDefinition} :
    x.request type = .ok (some (template, arguments)) →
    x.isKnown (template.instanceName arguments) = false →
    (template.instantiate arguments).properties = before ++ p :: after →
    Visits (extract depth) (x.begin (template.instanceName arguments)) before w →
    p.type ∉ w.registry.keys → Inserts depth w p.type z d → Inserts (depth + 1) x type z d

/-- An instance that comes in is marked up to then, so its name is not registered. -/
theorem Inserts.not_mem_keys {depth : Nat} {type : Text} {z : Expander} {d : ConcreteDefinition}
    (inserts : Inserts depth x type z d) (orderly : x.Orderly) : d.name ∉ z.registry.keys := by
  induction inserts with
  | own _ unknown visits =>
    obtain ⟨walked, marks⟩ := visits.continues continues_of_extract_ok
    apply (((continues_begin unknown).trans walked).orderly orderly).unregistered
    rw [marks]
    exact List.mem_cons_self ..
  | inner _ unknown _ visits _ _ ih =>
    obtain ⟨walked, -⟩ := visits.continues continues_of_extract_ok
    exact ih (((continues_begin unknown).trans walked).orderly orderly)

/-! ## Where new entries come from -/

/-- What a walk adds to the registry, one of its steps adds. -/
theorem mem_entries_of_visit {step : Expander → Text → Except Stop Unit × Expander}
    {properties : List Property} {outcome : Except Stop Unit}
    (run : visit step x properties = (outcome, y)) {entry : Text × ConcreteDefinition}
    (member : entry ∈ y.registry.entries) (new : entry ∉ x.registry.entries) :
    ∃ before p after z w result, properties = before ++ p :: after ∧ Visits step x before z ∧
      p.type ∉ z.registry.keys ∧ step z p.type = (result, w) ∧ entry ∈ w.registry.entries ∧
      entry ∉ z.registry.entries := by
  induction properties generalizing x with
  | nil =>
    cases run
    exact absurd member new
  | cons p properties ih =>
    rw [visit] at run
    split at run
    · rename_i known
      obtain ⟨before, q, after, z, w, result, rfl, visits, rest⟩ := ih run new
      exact ⟨p :: before, q, after, z, w, result, rfl,
        .skip (Dict.contains_eq_true_iff.1 known) visits, rest⟩
    · rename_i unknown
      have unregistered : p.type ∉ x.registry.keys := fun known =>
        unknown (Dict.contains_eq_true_iff.2 known)
      split at run
      · rename_i m stepped
        by_cases here : entry ∈ m.registry.entries
        · exact ⟨[], p, properties, x, m, .ok (), rfl, .nil, unregistered, stepped, here, new⟩
        · obtain ⟨before, q, after, z, w, result, rfl, visits, rest⟩ := ih run here
          exact ⟨p :: before, q, after, z, w, result, rfl, .enter unregistered stepped visits, rest⟩
      · exact ⟨[], p, properties, x, y, outcome, rfl, .nil, unregistered, run, member, new⟩

/-- What a call adds to the registry is an instance that it inserts under its own name. -/
theorem mem_entries_of_extract {depth : Nat} {type : Text} {outcome : Except Stop Unit}
    (run : x.extract depth type = (outcome, y)) {entry : Text × ConcreteDefinition}
    (member : entry ∈ y.registry.entries) (new : entry ∉ x.registry.entries) :
    entry.1 = entry.2.name ∧ ∃ z, Inserts depth x type z entry.2 := by
  induction depth generalizing x y type outcome with
  | zero =>
    cases run
    exact absurd member new
  | succ depth ih =>
    -- an entry that the walk over the properties adds comes from one of the calls in it
    have walked : ∀ {template : Template} {arguments : List Text} {z : Expander}
        {result : Except Stop Unit}, x.request type = .ok (some (template, arguments)) →
        x.isKnown (template.instanceName arguments) = false →
        visit (extract depth) (x.begin (template.instanceName arguments))
          (template.instantiate arguments).properties = (result, z) →
        entry ∈ z.registry.entries →
        entry.1 = entry.2.name ∧ ∃ z, Inserts (depth + 1) x type z entry.2 := by
      intro template arguments z result asked unknown visited inside
      obtain ⟨before, p, after, w, v, _, split, visits, unregistered, stepped, added, absent⟩ :=
        mem_entries_of_visit visited inside new
      obtain ⟨named, u, inserts⟩ := ih stepped added absent
      exact ⟨named, u, .inner asked unknown split visits unregistered inserts⟩
    cases outcome with
    | ok =>
      rcases extract_eq_ok run with ⟨-, rfl⟩ | ⟨template, arguments, asked, ended⟩
      · exact absurd member new
      · rcases ended with ⟨-, rfl⟩ | ⟨unknown, z, visited, rfl⟩
        · exact absurd member new
        · have entries := Registry.entries_insertIfAbsent z.registry
            (template.instantiate arguments)
          change entry ∈ (z.registry.insertIfAbsent (template.instantiate arguments)).2.entries
            at member
          rw [entries] at member
          split at member
          · exact walked asked unknown visited member
          · rcases List.mem_append.1 member with inside | last
            · exact walked asked unknown visited inside
            · rw [List.mem_singleton.1 last]
              exact ⟨rfl, z, .own asked unknown (visits_of_visit visited)⟩
    | error stop =>
      rcases extract_eq_error run with
        ⟨-, -, -, rfl⟩ | ⟨template, arguments, asked, unknown, visited⟩
      · exact absurd member new
      · exact walked asked unknown visited member

/-! ## Registries after any calls -/

namespace After

variable {definitions : List Definition} {history : List (Text × Except Stop Unit)}

theorem keyed (after : After definitions history x) : x.registry.Keyed := by
  induction after with
  | start started =>
    obtain ⟨-, -, -, keyed, -⟩ := ofDefinitions_eq_ok started
    exact keyed
  | @call _ x y _ _ _ _ run ih =>
    intro entry member
    by_cases known : entry ∈ x.registry.entries
    · exact ih entry known
    · exact (mem_entries_of_extract run member known).1

/-- After any calls, failed ones included, each name is registered once and with the definition of
that name, and no name is both registered and in progress. Whatever a further call does, the
definitions that are registered keep their places and contents, what comes behind them are the
instances that are inserted at some depth of the recursion, and each insertion finds its name
absent. If the call succeeds, it leaves the instances in progress as they were. -/
theorem registry_grows (after : After definitions history x) :
    (x.registry.definitions.map ConcreteDefinition.name).Nodup ∧ x.registry.Keyed ∧
      (∀ name ∈ x.inProgress, name ∉ x.registry.keys) ∧
      ∀ (depth : Nat) (type : Text),
        x.registry.definitions <+: (x.extract depth type).2.registry.definitions ∧
        (∀ z d, Inserts depth x type z d → (z.registry.insertIfAbsent d).1 = true) ∧
        (∀ d ∈ (x.extract depth type).2.registry.definitions, d ∉ x.registry.definitions →
          ∃ z, Inserts depth x type z d) ∧
        ((x.extract depth type).1 = .ok () →
          (x.extract depth type).2.inProgress = x.inProgress) := by
  have distinct : (x.registry.definitions.map ConcreteDefinition.name).Nodup := by
    rw [← after.keyed.keys_eq]
    exact x.registry.distinct
  refine ⟨distinct, after.keyed, after.orderly.unregistered, fun depth type => ?_⟩
  have run : x.extract depth type = ((x.extract depth type).1, (x.extract depth type).2) := rfl
  obtain ⟨continues, restored⟩ := continues_of_extract run
  refine ⟨continues.entries.map Prod.snd, fun z d inserts => ?_, fun d member new => ?_, restored⟩
  · have absent : ¬ Dict.contains z.registry d.name = true := fun present =>
      inserts.not_mem_keys after.orderly (Dict.contains_eq_true_iff.1 present)
    rw [Registry.insertIfAbsent, if_neg absent]
  · obtain ⟨entry, listed, rfl⟩ := List.mem_map.1 member
    have absent : entry ∉ x.registry.entries := fun known => new (List.mem_map_of_mem known)
    exact (mem_entries_of_extract run listed absent).2

/-- Rows of leaves, and bunches of leaves with something that is missing. -/
def rowsOfLeaves : List Definition := [
  .new "Item".toList [],
  { name := "Leaf".toList
    parameters := ["T".toList]
    properties := [.new "value".toList "T".toList true []] },
  { name := "Bunch".toList
    parameters := ["T".toList]
    properties := [.new "leaf".toList "Leaf<T>".toList true [],
      .new "rest".toList "Missing<T>".toList true []] },
  { name := "Row".toList
    parameters := ["T".toList]
    properties := [.new "first".toList "Leaf<T>".toList true [],
      .new "others".toList "Leaf<T[]>".toList true []] }]

/-- A bunch fails behind its leaf. A row then finds that leaf and puts in another one, which the
registry does not have, before itself. -/
theorem registry_grows_row :
    ∃ x z d, After rowsOfLeaves [("Bunch<Item>".toList,
        .error (.error (.unknownTemplate "Missing<Item>".toList "Missing".toList)))] x ∧
      x.inProgress = ["Bunch<Item>".toList] ∧
      x.registry.keys = ["Item".toList, "Leaf<Item>".toList] ∧
      (x.extract 5 "Row<Item>[]".toList).2.registry.keys =
        ["Item".toList, "Leaf<Item>".toList, "Leaf<Item[]>".toList, "Row<Item>".toList] ∧
      x.registry.definitions <+: (x.extract 5 "Row<Item>[]".toList).2.registry.definitions ∧
      (x.extract 5 "Row<Item>[]".toList).2.inProgress = x.inProgress ∧
      d.name = "Leaf<Item[]>".toList ∧ Inserts 5 x "Row<Item>[]".toList z d ∧
      (z.registry.insertIfAbsent d).1 = true := by
  obtain ⟨x, after, marks, keys, done, grown⟩ : ∃ x, After rowsOfLeaves [("Bunch<Item>".toList,
      .error (.error (.unknownTemplate "Missing<Item>".toList "Missing".toList)))] x ∧
      x.inProgress = ["Bunch<Item>".toList] ∧
      x.registry.keys = ["Item".toList, "Leaf<Item>".toList] ∧
      (x.extract 5 "Row<Item>[]".toList).1 = .ok () ∧
      (x.extract 5 "Row<Item>[]".toList).2.registry.keys =
        ["Item".toList, "Leaf<Item>".toList, "Leaf<Item[]>".toList, "Row<Item>".toList] := by
    have runs : (ofDefinitions rowsOfLeaves).toOption.any (fun start =>
        let x := (start.extract 5 "Bunch<Item>".toList).2
        decide ((start.extract 5 "Bunch<Item>".toList).1 =
            .error (.error (.unknownTemplate "Missing<Item>".toList "Missing".toList)) ∧
          x.inProgress = ["Bunch<Item>".toList] ∧
          x.registry.keys = ["Item".toList, "Leaf<Item>".toList] ∧
          (x.extract 5 "Row<Item>[]".toList).1 = .ok () ∧
          (x.extract 5 "Row<Item>[]".toList).2.registry.keys = ["Item".toList,
            "Leaf<Item>".toList, "Leaf<Item[]>".toList, "Row<Item>".toList])) = true := by
      decide +kernel
    obtain ⟨start, found, runs⟩ := (Option.any_eq_true ..).1 runs
    obtain ⟨failed, rest⟩ := of_decide_eq_true runs
    exact ⟨(start.extract 5 "Bunch<Item>".toList).2,
      .call (.start (toOption_eq_some_iff.1 found)) (Prod.ext failed rfl), rest⟩
  obtain ⟨-, keyed, -, calls⟩ := registry_grows after
  obtain ⟨grows, fresh, inserted, restored⟩ := calls 5 "Row<Item>[]".toList
  have further : After rowsOfLeaves _ (x.extract 5 "Row<Item>[]".toList).2 :=
    after.call (Prod.ext done rfl)
  have leaf : "Leaf<Item[]>".toList ∈ (x.extract 5 "Row<Item>[]".toList).2.registry.keys := by
    rw [grown]
    decide
  obtain ⟨d, member, named⟩ := further.keyed.mem_keys_iff.1 leaf
  have absent : d ∉ x.registry.definitions := by
    intro known
    have registered := keyed.mem_keys_iff.2 ⟨d, known, named⟩
    rw [keys] at registered
    revert registered
    decide
  obtain ⟨z, inserts⟩ := inserted d member absent
  exact ⟨x, z, d, after, marks, keys, grown, grows, restored done, named, inserts,
    fresh z d inserts⟩

end After

end Expander

end ApiSchema
