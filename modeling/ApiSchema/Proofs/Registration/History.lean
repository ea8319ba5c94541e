import ApiSchema.Proofs.Registration

/-!
# A registry and its history

A registry is changed in two ways that settle a conflict over a name in opposite ways: `set` puts
the new definition in the place of the old one, `insertIfAbsent` drops it. `Registry.run` makes any
changes one after the other and keeps what each of them returned.

Both ways bring in a new name at the end and leave the names alone otherwise (`keys_perform`), and
what they do to the definition of a name are the two sides of one alternative (`get?_perform`): a
set goes in front of what is held, an insertion behind it. So the state after any changes can be
read off the list of changes (`run_eq_history`).
-/

namespace ApiSchema

namespace Registry

/-! ## Changes -/

/-- A change of a registry. -/
inductive Change where
  | set (d : ConcreteDefinition)
  | insertIfAbsent (d : ConcreteDefinition)

namespace Change

/-- The definition that comes in. -/
def definition : Change → ConcreteDefinition
  | set d => d
  | insertIfAbsent d => d

/-- The name that a change is about. -/
def name (change : Change) : Text :=
  change.definition.name

/-- The definition that a change sets a name to. -/
def setsTo? (name : Text) : Change → Option ConcreteDefinition
  | set d => if name = d.name then some d else none
  | insertIfAbsent _ => none

/-- The definition that a change offers for a name that may be taken. -/
def offers? (name : Text) : Change → Option ConcreteDefinition
  | set _ => none
  | insertIfAbsent d => if name = d.name then some d else none

end Change

/-- Makes a change, and gives what it returns: nothing for a set, and for an insertion whether it
took place. -/
def perform (r : Registry) : Change → Option Bool × Registry
  | .set d => (none, r.set d)
  | .insertIfAbsent d => (some (r.insertIfAbsent d).1, (r.insertIfAbsent d).2)

/-- Makes changes one after the other, and gives what each of them returned. -/
def run (r : Registry) : List Change → List (Option Bool) × Registry
  | [] => ([], r)
  | change :: changes =>
    let (answer, next) := r.perform change
    let (answers, last) := run next changes
    (answer :: answers, last)

theorem run_append (r : Registry) (front back : List Change) :
    r.run (front ++ back) =
      ((r.run front).1 ++ ((r.run front).2.run back).1, ((r.run front).2.run back).2) := by
  induction front generalizing r with
  | nil => rfl
  | cons change front ih => simp [run, ih]

theorem run_concat (r : Registry) (changes : List Change) (change : Change) :
    r.run (changes ++ [change]) =
      ((r.run changes).1 ++ [((r.run changes).2.perform change).1],
        ((r.run changes).2.perform change).2) :=
  run_append r changes [change]

/-! ## One change -/

/-- A new name comes last. -/
theorem keys_perform (r : Registry) (change : Change) :
    (r.perform change).2.keys =
      if change.name ∈ r.keys then r.keys else r.keys ++ [change.name] := by
  cases change with
  | set d => exact Dict.keys_insert r d.name d
  | insertIfAbsent d =>
    show (r.insertIfAbsent d).2.keys = if d.name ∈ r.keys then r.keys else r.keys ++ [d.name]
    rw [Dict.keys, entries_insertIfAbsent]
    split
    · rfl
    · rw [List.map_append]
      rfl

theorem get?_set (r : Registry) (d : ConcreteDefinition) (name : Text) :
    (r.set d).get? name = (if name = d.name then some d else none).or (r.get? name) := by
  unfold set
  rw [Dict.get?_insert]
  split <;> simp

theorem get?_insertIfAbsent (r : Registry) (d : ConcreteDefinition) (name : Text) :
    (r.insertIfAbsent d).2.get? name =
      (r.get? name).or (if name = d.name then some d else none) := by
  unfold insertIfAbsent
  split
  · rename_i known
    obtain ⟨held, found⟩ := Option.isSome_iff_exists.1 known
    split
    · rename_i same
      rw [same, found, Option.some_or]
    · rw [Option.or_none]
  · rename_i unknown
    have absent : r.get? d.name = none := by
      rw [Dict.contains, Bool.not_eq_true, Option.isSome_eq_false_iff, Option.isNone_iff_eq_none]
        at unknown
      exact unknown
    rw [Dict.get?_insert]
    split
    · rename_i same
      rw [same, absent, Option.none_or]
    · rw [Option.or_none]

/-- A set counts before what is held, an insertion after it. -/
theorem get?_perform (r : Registry) (change : Change) (name : Text) :
    (r.perform change).2.get? name =
      ((change.setsTo? name).or (r.get? name)).or (change.offers? name) := by
  cases change with
  | set d =>
    unfold perform Change.setsTo? Change.offers?
    rw [get?_set, Option.or_none]
  | insertIfAbsent d =>
    unfold perform Change.setsTo? Change.offers?
    rw [get?_insertIfAbsent, Option.none_or]

theorem Keyed.set {r : Registry} (keyed : r.Keyed) (d : ConcreteDefinition) : Keyed (r.set d) := by
  intro entry member
  have found : (r.insert d.name d).get? entry.1 = some entry.2 := Dict.get?_eq_some_iff.2 member
  rw [Dict.get?_insert] at found
  split at found
  · rename_i same
    rw [same, ← Option.some.inj found]
  · exact keyed entry (Dict.get?_eq_some_iff.1 found)

theorem Keyed.perform {r : Registry} (keyed : r.Keyed) (change : Change) :
    Keyed (r.perform change).2 := by
  cases change with
  | set d => exact keyed.set d
  | insertIfAbsent d => exact keyed.insertIfAbsent d

/-! ## Any changes -/

/-- The last definition that a name was set to. -/
def lastSet? (changes : List Change) (name : Text) : Option ConcreteDefinition :=
  changes.reverse.findSome? (Change.setsTo? name)

/-- The first definition that was offered for a name. -/
def firstOffer? (changes : List Change) (name : Text) : Option ConcreteDefinition :=
  changes.findSome? (Change.offers? name)

theorem keys_run (changes : List Change) :
    Dict.keys (run .empty changes).2 = (changes.map Change.name).eraseDups := by
  induction changes using List.reverseRecOn with
  | nil => rfl
  | append_singleton changes change ih =>
    rw [run_concat, keys_perform, ih, List.map_append, List.map_singleton, eraseDups_concat]
    simp only [List.mem_eraseDups]

theorem get?_run (changes : List Change) (name : Text) :
    Dict.get? (run .empty changes).2 name =
      (lastSet? changes name).or (firstOffer? changes name) := by
  induction changes using List.reverseRecOn with
  | nil => rfl
  | append_singleton changes change ih =>
    have last : lastSet? (changes ++ [change]) name =
        (change.setsTo? name).or (lastSet? changes name) := by
      unfold lastSet?
      rw [List.reverse_concat, List.findSome?_cons]
      cases change.setsTo? name <;> rfl
    have first : firstOffer? (changes ++ [change]) name =
        (firstOffer? changes name).or (change.offers? name) := by
      unfold firstOffer?
      rw [List.findSome?_append]
      simp
    rw [run_concat, get?_perform, ih, last, first, Option.or_assoc, Option.or_assoc,
      Option.or_assoc]

theorem keyed_run (changes : List Change) : Keyed (run .empty changes).2 := by
  induction changes using List.reverseRecOn with
  | nil => simp [Keyed, run, Dict.empty]
  | append_singleton changes change ih =>
    rw [run_concat]
    exact ih.perform change

/-- What a change returns after changes about `names`. -/
def Change.answerAfter (names : List Text) : Change → Option Bool
  | set _ => none
  | insertIfAbsent d => some (decide (d.name ∉ names))

theorem perform_answer (changes : List Change) (change : Change) :
    ((run .empty changes).2.perform change).1 = change.answerAfter (changes.map Change.name) := by
  cases change with
  | set d => rfl
  | insertIfAbsent d =>
    have known : (run .empty changes).2.contains d.name = true ↔
        d.name ∈ changes.map Change.name := by
      rw [Dict.contains_eq_true_iff, keys_run, List.mem_eraseDups]
    show some (insertIfAbsent _ d).1 = some (decide (d.name ∉ changes.map Change.name))
    unfold insertIfAbsent
    by_cases member : d.name ∈ changes.map Change.name
    · rw [if_pos (known.2 member), decide_eq_false (not_not.2 member)]
    · rw [if_neg (mt known.1 member), decide_eq_true member]

/-- Each change returns what it returns after those before it. -/
theorem answers_run (changes : List Change) :
    (run .empty changes).1 =
      changes.mapIdx fun i change => change.answerAfter ((changes.take i).map Change.name) := by
  induction changes using List.reverseRecOn with
  | nil => rfl
  | append_singleton changes change ih =>
    rw [run_concat, List.mapIdx_concat]
    dsimp only
    rw [perform_answer, ih, List.take_left]
    congr 1
    · apply List.mapIdx_eq_mapIdx_iff.2
      intro i inside
      rw [List.take_append_of_le_length (Nat.le_of_lt inside)]

/-- What any changes leave behind and return. Each name that occurred is there once, at the place
where it first occurred, with the definition of its last set, or if it was never set with that of
its first insertion; and an insertion took place exactly if no change before it had its name. -/
theorem run_eq_history (changes : List Change) :
    Dict.keys (run .empty changes).2 = (changes.map Change.name).eraseDups ∧
      (run .empty changes).2.definitions.map ConcreteDefinition.name =
        (changes.map Change.name).eraseDups ∧
      (run .empty changes).2.definitions.map some =
        (changes.map Change.name).eraseDups.map
          (fun name => (lastSet? changes name).or (firstOffer? changes name)) ∧
      (∀ name, Dict.get? (run .empty changes).2 name =
        (lastSet? changes name).or (firstOffer? changes name)) ∧
      Keyed (run .empty changes).2 ∧
      (run .empty changes).1 =
        changes.mapIdx fun i change => change.answerAfter ((changes.take i).map Change.name) := by
  have keys := keys_run changes
  have keyed := keyed_run changes
  have held := get?_run changes
  refine ⟨keys, keyed.keys_eq ▸ keys, ?_, held, keyed, answers_run changes⟩
  rw [definitions, Dict.map_some_values, keys]
  exact List.map_congr_left fun name _ => held name

end Registry

end ApiSchema
