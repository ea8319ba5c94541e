import ApiSchema.Text.Basic

/-!
Dictionaries in the order of insertion.

A key stands at the place where it was first inserted, with the value of its last insertion.
That the keys are distinct is part of the type. Main statements: `Dict.keys_insert` and
`Dict.get?_insert` say what an insertion does to the keys and to a look-up.
-/

namespace ApiSchema

/-- Sets the value of a key: in place if the key is there, else at the end. -/
def upsert {α : Type} (key : Text) (value : α) : List (Text × α) → List (Text × α)
  | [] => [(key, value)]
  | (k, v) :: rest => if k == key then (key, value) :: rest else (k, v) :: upsert key value rest

theorem keys_upsert {α : Type} (key : Text) (value : α) (entries : List (Text × α)) :
    (upsert key value entries).map Prod.fst =
      if key ∈ entries.map Prod.fst then entries.map Prod.fst
      else entries.map Prod.fst ++ [key] := by
  induction entries with
  | nil => simp [upsert]
  | cons entry rest ih =>
    obtain ⟨k, v⟩ := entry
    by_cases h : k = key
    · simp [upsert, h]
    · have h' : ¬ key = k := fun e => h e.symm
      simp only [upsert, beq_iff_eq, h, if_false, List.map_cons, ih, List.mem_cons, h', false_or]
      split <;> simp

theorem lookup_cons_eq {α : Type} (key other : Text) (value : α) (rest : List (Text × α)) :
    ((key, value) :: rest).lookup other = if other = key then some value else rest.lookup other := by
  rw [List.lookup_cons]
  by_cases h : other = key
  · simp [h]
  · simp [h, beq_eq_false_iff_ne.2 h]

theorem lookup_upsert {α : Type} (key other : Text) (value : α) (entries : List (Text × α)) :
    (upsert key value entries).lookup other =
      if other = key then some value else entries.lookup other := by
  induction entries with
  | nil => rw [upsert, lookup_cons_eq, List.lookup_nil]
  | cons entry rest ih =>
    obtain ⟨k, v⟩ := entry
    simp only [upsert, beq_iff_eq]
    split
    · simp only [lookup_cons_eq]
      split <;> simp_all
    · simp only [lookup_cons_eq, ih]
      grind

/-- A dictionary whose keys are texts, in the order of their first insertion. -/
structure Dict (α : Type) where
  entries : List (Text × α)
  distinct : (entries.map Prod.fst).Nodup

namespace Dict

variable {α : Type}

instance [DecidableEq α] : DecidableEq (Dict α) := fun a b =>
  decidable_of_iff (a.entries = b.entries) (by cases a; cases b; simp)

instance [Repr α] : Repr (Dict α) where
  reprPrec d n := reprPrec d.entries n

/-- The dictionary without entries. -/
def empty : Dict α where
  entries := []
  distinct := by simp

instance : Inhabited (Dict α) := ⟨empty⟩

/-- The keys in order. -/
def keys (d : Dict α) : List Text :=
  d.entries.map Prod.fst

/-- The values in the order of their keys. -/
def values (d : Dict α) : List α :=
  d.entries.map Prod.snd

/-- The number of entries. -/
def size (d : Dict α) : Nat :=
  d.entries.length

/-- The value of a key. -/
def get? (d : Dict α) (key : Text) : Option α :=
  d.entries.lookup key

/-- True of the keys that have a value. -/
def contains (d : Dict α) (key : Text) : Bool :=
  (d.get? key).isSome

/-- Sets the value of a key. A key that is already there keeps its place. -/
def insert (d : Dict α) (key : Text) (value : α) : Dict α where
  entries := upsert key value d.entries
  distinct := by
    rw [keys_upsert]
    split
    · exact d.distinct
    · rename_i absent
      rw [List.nodup_append]
      refine ⟨d.distinct, by simp, fun a ha b hb e => absent ?_⟩
      simp only [List.mem_singleton] at hb
      exact hb ▸ e ▸ ha

/-- Inserts pairs one after the other. -/
def ofList (pairs : List (Text × α)) : Dict α :=
  pairs.foldl (fun d pair => d.insert pair.1 pair.2) empty

theorem keys_insert (d : Dict α) (key : Text) (value : α) :
    (d.insert key value).keys = if key ∈ d.keys then d.keys else d.keys ++ [key] :=
  keys_upsert key value d.entries

theorem get?_insert (d : Dict α) (key other : Text) (value : α) :
    (d.insert key value).get? other = if other = key then some value else d.get? other :=
  lookup_upsert key other value d.entries

end Dict

end ApiSchema
