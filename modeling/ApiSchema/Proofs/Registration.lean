import Mathlib.Data.List.Basic
import Mathlib.Data.List.Induction
import ApiSchema.Registry

/-!
# Registering definitions one after the other

A registry is looked at through its names and through the definition of each name. `Keyed` says
that every definition stands under its own name. `definitions_foldl_set` describes the registry
after any number of replacing insertions: each name once, at the place of its first definition and
with the content of its last.
-/

namespace ApiSchema

/-! ## Entries of a dictionary -/

theorem upsert_of_not_mem {α : Type} {key : Text} {value : α} {entries : List (Text × α)}
    (absent : key ∉ entries.map Prod.fst) :
    upsert key value entries = entries ++ [(key, value)] := by
  induction entries with
  | nil => rfl
  | cons entry rest ih =>
    rw [List.map_cons, List.mem_cons, not_or] at absent
    have other : ¬ (entry.1 == key) = true := fun same => absent.1 (beq_iff_eq.1 same).symm
    rw [upsert, if_neg other, ih absent.2, List.cons_append]

theorem lookup_of_mem {α : Type} {entries : List (Text × α)} {entry : Text × α}
    (distinct : (entries.map Prod.fst).Nodup) (member : entry ∈ entries) :
    entries.lookup entry.1 = some entry.2 := by
  induction entries with
  | nil => cases member
  | cons first rest ih =>
    rw [List.map_cons, List.nodup_cons] at distinct
    rcases List.mem_cons.1 member with rfl | later
    · exact List.lookup_cons_self
    · have other : entry.1 ≠ first.1 := by
        intro same
        exact distinct.1 (same ▸ List.mem_map_of_mem later)
      rw [lookup_cons_eq, if_neg other]
      exact ih distinct.2 later

theorem mem_of_lookup {α : Type} {entries : List (Text × α)} {key : Text} {value : α}
    (found : entries.lookup key = some value) : (key, value) ∈ entries := by
  obtain ⟨front, back, rfl, -⟩ := List.lookup_eq_some_iff.1 found
  exact List.mem_append_right _ (List.mem_cons_self ..)

namespace Dict

variable {α : Type}

theorem get?_eq_some_iff {d : Dict α} {key : Text} {value : α} :
    d.get? key = some value ↔ (key, value) ∈ d.entries :=
  ⟨mem_of_lookup, lookup_of_mem d.distinct⟩

theorem contains_eq_true_iff {d : Dict α} {key : Text} :
    d.contains key = true ↔ key ∈ d.keys := by
  rw [contains, Option.isSome_iff_exists, keys, List.mem_map]
  constructor
  · intro ⟨value, found⟩
    exact ⟨(key, value), get?_eq_some_iff.1 found, rfl⟩
  · rintro ⟨⟨_, value⟩, member, rfl⟩
    exact ⟨value, get?_eq_some_iff.2 member⟩

theorem entries_insert_of_not_mem {d : Dict α} {key : Text} {value : α} (absent : key ∉ d.keys) :
    (d.insert key value).entries = d.entries ++ [(key, value)] :=
  upsert_of_not_mem absent

theorem eq_of_entries {d e : Dict α} (same : d.entries = e.entries) : d = e := by
  cases d
  cases e
  cases same
  rfl

/-- Inserting new keys one after the other puts them at the end. -/
theorem entries_foldl_insert (pairs : List (Text × α)) (d : Dict α)
    (distinct : ((d.entries ++ pairs).map Prod.fst).Nodup) :
    (pairs.foldl (fun d pair => d.insert pair.1 pair.2) d).entries = d.entries ++ pairs := by
  induction pairs generalizing d with
  | nil => rw [List.foldl_nil, List.append_nil]
  | cons pair pairs ih =>
    have absent : pair.1 ∉ d.keys := by
      intro known
      rw [List.map_append] at distinct
      exact (List.nodup_append.1 distinct).2.2 _ known _ (List.mem_cons_self ..) rfl
    have inserted : (d.insert pair.1 pair.2).entries = d.entries ++ [(pair.1, pair.2)] :=
      entries_insert_of_not_mem absent
    rw [List.foldl_cons, ih _ (by rwa [inserted, List.append_assoc]), inserted, List.append_assoc]
    rfl

theorem ofList_entries (d : Dict α) : ofList d.entries = d :=
  eq_of_entries (entries_foldl_insert d.entries empty d.distinct)

theorem values_eq_filterMap (d : Dict α) : d.values = d.keys.filterMap d.get? := by
  rw [values, keys, List.filterMap_map, ← List.filterMap_eq_map]
  refine List.filterMap_congr fun entry member => ?_
  exact (get?_eq_some_iff.2 member).symm

theorem map_some_values (d : Dict α) : d.values.map some = d.keys.map d.get? := by
  rw [values, keys, List.map_map, List.map_map]
  refine List.map_congr_left fun entry member => ?_
  exact (get?_eq_some_iff.2 member).symm

end Dict

/-! ## Registries -/

namespace Registry

/-- Every definition stands under its own name. -/
def Keyed (r : Registry) : Prop :=
  ∀ entry ∈ r.entries, entry.1 = entry.2.name

theorem Keyed.keys_eq {r : Registry} (keyed : r.Keyed) :
    r.keys = r.definitions.map ConcreteDefinition.name := by
  rw [Dict.keys, definitions, Dict.values, List.map_map]
  exact List.map_congr_left keyed

theorem Keyed.mem_keys_iff {r : Registry} (keyed : r.Keyed) {name : Text} :
    name ∈ r.keys ↔ ∃ d ∈ r.definitions, d.name = name := by
  rw [keyed.keys_eq, List.mem_map]

/-! ### Putting in what is not there -/

/-- A definition of a new name comes last, and one of a known name is dropped. -/
theorem entries_insertIfAbsent (r : Registry) (d : ConcreteDefinition) :
    (r.insertIfAbsent d).2.entries =
      if d.name ∈ r.keys then r.entries else r.entries ++ [(d.name, d)] := by
  rw [insertIfAbsent]
  by_cases known : d.name ∈ r.keys
  · rw [if_pos (Dict.contains_eq_true_iff.2 known), if_pos known]
  · rw [if_neg fun present => known (Dict.contains_eq_true_iff.1 present), if_neg known]
    exact Dict.entries_insert_of_not_mem known

theorem prefix_entries_insertIfAbsent (r : Registry) (d : ConcreteDefinition) :
    r.entries <+: (r.insertIfAbsent d).2.entries := by
  rw [entries_insertIfAbsent]
  split
  · exact List.prefix_rfl
  · exact List.prefix_append _ _

theorem mem_keys_insertIfAbsent {r : Registry} {d : ConcreteDefinition} {name : Text} :
    name ∈ (r.insertIfAbsent d).2.keys ↔ name ∈ r.keys ∨ name = d.name := by
  rw [Dict.keys, entries_insertIfAbsent]
  split
  · rename_i known
    constructor
    · exact Or.inl
    · rintro (member | rfl)
      · exact member
      · exact known
  · rw [List.map_append, List.mem_append, List.map_singleton, List.mem_singleton]
    rfl

theorem mem_definitions_of_insertIfAbsent {r : Registry} {d e : ConcreteDefinition}
    (member : e ∈ (r.insertIfAbsent d).2.definitions) : e ∈ r.definitions ∨ e = d := by
  rw [definitions, Dict.values, entries_insertIfAbsent] at member
  split at member
  · exact Or.inl member
  · rw [List.map_append, List.mem_append, List.map_singleton, List.mem_singleton] at member
    exact member

theorem Keyed.insertIfAbsent {r : Registry} (keyed : r.Keyed) (d : ConcreteDefinition) :
    Keyed (r.insertIfAbsent d).2 := by
  intro entry member
  rw [entries_insertIfAbsent] at member
  split at member
  · exact keyed entry member
  · rcases List.mem_append.1 member with before | last
    · exact keyed entry before
    · rw [List.mem_singleton.1 last]

/-! ### Putting in what counts last -/

/-- Each name once, at the place of its first definition and with the content of its last. -/
def lastOfEach (definitions : List ConcreteDefinition) : List ConcreteDefinition :=
  (definitions.map ConcreteDefinition.name).eraseDups.filterMap fun name =>
    definitions.findRev? (fun d => decide (d.name = name))

theorem mem_of_mem_lastOfEach {definitions : List ConcreteDefinition} {d : ConcreteDefinition}
    (member : d ∈ lastOfEach definitions) : d ∈ definitions := by
  obtain ⟨name, -, last⟩ := List.mem_filterMap.1 member
  rw [List.findRev?_eq_find?_reverse] at last
  exact List.mem_reverse.1 (List.mem_of_find?_eq_some last)

theorem eraseDups_concat (names : List Text) (name : Text) :
    (names ++ [name]).eraseDups =
      if name ∈ names then names.eraseDups else names.eraseDups ++ [name] := by
  rw [List.eraseDups_append]
  split
  · rename_i known
    simp [List.removeAll, known]
  · rename_i new
    simp [List.removeAll, new, List.eraseDups_cons]

theorem nodup_eraseDups (names : List Text) : names.eraseDups.Nodup := by
  induction names using List.reverseRecOn with
  | nil => exact List.nodup_nil
  | append_singleton names name ih =>
    rw [eraseDups_concat]
    split
    · exact ih
    · rename_i new
      rw [List.nodup_append]
      refine ⟨ih, by simp, fun known listed added member equal => new ?_⟩
      rw [← List.mem_singleton.1 member, ← equal]
      exact List.mem_eraseDups.1 listed

theorem keys_foldl_set (ds : List ConcreteDefinition) :
    Dict.keys (ds.foldl set Dict.empty) = (ds.map ConcreteDefinition.name).eraseDups := by
  induction ds using List.reverseRecOn with
  | nil => rfl
  | append_singleton ds d ih =>
    rw [List.foldl_concat, set, Dict.keys_insert, ih, List.map_append, List.map_singleton,
      eraseDups_concat]
    simp only [List.mem_eraseDups]

theorem get?_foldl_set (ds : List ConcreteDefinition) (name : Text) :
    Dict.get? (ds.foldl set Dict.empty) name = ds.findRev? (fun d => decide (d.name = name)) := by
  induction ds using List.reverseRecOn with
  | nil => rfl
  | append_singleton ds d ih =>
    rw [List.foldl_concat, set, Dict.get?_insert, ih]
    by_cases same : d.name = name
    · simp [same]
    · simp [same, Ne.symm same]

/-- What replacing insertions leave behind. -/
theorem definitions_foldl_set (ds : List ConcreteDefinition) :
    definitions (ds.foldl set Dict.empty) = lastOfEach ds := by
  rw [definitions, Dict.values_eq_filterMap, keys_foldl_set, lastOfEach]
  exact List.filterMap_congr fun name _ => get?_foldl_set ds name

theorem keyed_foldl_set (ds : List ConcreteDefinition) : Keyed (ds.foldl set Dict.empty) := by
  intro entry member
  have found : Dict.get? (ds.foldl set Dict.empty) entry.1 = some entry.2 :=
    Dict.get?_eq_some_iff.2 member
  rw [get?_foldl_set, List.findRev?_eq_find?_reverse] at found
  have named := List.find?_some found
  exact (of_decide_eq_true named).symm

end Registry

end ApiSchema
