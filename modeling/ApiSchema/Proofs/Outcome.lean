import Mathlib.Data.List.Forall2

/-!
# Computations that may fail

When a computation in `Except` succeeds, so did each of its parts: one equivalence for each way in
which the library puts such computations together. When one fails, a part of it failed. In `Option` a pass over
a list has no outcome just when some element has none.
-/

namespace ApiSchema

variable {α β ε : Type}

theorem map_eq_ok_iff {f : α → β} {x : Except ε α} {b : β} :
    x.map f = .ok b ↔ ∃ a, x = .ok a ∧ f a = b := by
  cases x with
  | error e => simp [Except.map]
  | ok a => simp [Except.map]

theorem bind_eq_ok_iff {f : α → Except ε β} {x : Except ε α} {b : β} :
    (x >>= f) = .ok b ↔ ∃ a, x = .ok a ∧ f a = .ok b := by
  cases x with
  | error e => simp [bind, Except.bind]
  | ok a => simp [bind, Except.bind]

theorem mapError_eq_ok_iff {δ : Type} {f : ε → δ} {x : Except ε α} {a : α} :
    x.mapError f = .ok a ↔ x = .ok a := by
  cases x with
  | error e => simp [Except.mapError]
  | ok b => simp [Except.mapError]

theorem toOption_eq_some_iff {x : Except ε α} {a : α} : x.toOption = some a ↔ x = .ok a := by
  cases x with
  | error e => simp [Except.toOption]
  | ok b => simp [Except.toOption]

theorem exists_ok_of_isSome {x : Except ε α} (returned : x.toOption.isSome = true) :
    ∃ a, x = .ok a := by
  obtain ⟨a, found⟩ := Option.isSome_iff_exists.1 returned
  exact ⟨a, toOption_eq_some_iff.1 found⟩

theorem mapM_eq_ok_iff {f : α → Except ε β} {l : List α} {r : List β} :
    l.mapM f = .ok r ↔ List.Forall₂ (fun a b => f a = .ok b) l r := by
  induction l generalizing r with
  | nil => cases r <;> simp [pure, Except.pure]
  | cons a l ih =>
    rw [List.mapM_cons, bind_eq_ok_iff]
    simp only [bind_eq_ok_iff, ih]
    constructor
    · intro ⟨b, first, bs, rest, same⟩
      cases same
      exact .cons first rest
    · intro all
      cases all with
      | cons first rest => exact ⟨_, first, _, rest, rfl⟩

/-- Two lists are related through a third just when their elements are through elements. -/
theorem exists_forall₂_iff {γ : Type} {P : α → β → Prop} {Q : β → γ → Prop} {l : List α}
    {r : List γ} :
    (∃ m, List.Forall₂ P l m ∧ List.Forall₂ Q m r) ↔
      List.Forall₂ (fun a c => ∃ b, P a b ∧ Q b c) l r := by
  constructor
  · rintro ⟨m, first, second⟩
    induction first generalizing r with
    | nil =>
      cases second
      exact .nil
    | cons here _ ih =>
      cases second with
      | cons there rest => exact .cons ⟨_, here, there⟩ (ih rest)
  · intro both
    induction both with
    | nil => exact ⟨[], .nil, .nil⟩
    | cons here _ ih =>
      obtain ⟨b, first, second⟩ := here
      obtain ⟨m, later, last⟩ := ih
      exact ⟨b :: m, .cons first later, .cons second last⟩

theorem forall_mem_of_forall₂ {P : β → Prop} {l : List α} {r : List β}
    (each : List.Forall₂ (fun _ b => P b) l r) : ∀ b ∈ r, P b := by
  induction each with
  | nil => simp
  | cons first _ ih => exact List.forall_mem_cons.2 ⟨first, ih⟩

theorem exists_mem_iff_of_forall₂ {P : α → Prop} {Q : β → Prop} {l : List α} {r : List β}
    (each : List.Forall₂ (fun a b => P a ↔ Q b) l r) : (∃ a ∈ l, P a) ↔ ∃ b ∈ r, Q b := by
  induction each with
  | nil => simp
  | cons first _ ih => simp only [List.exists_mem_cons_iff, first, ih]

theorem forM_eq_ok_iff {f : α → Except ε Unit} {l : List α} :
    l.forM f = .ok () ↔ ∀ a ∈ l, f a = .ok () := by
  induction l with
  | nil => simp [pure, Except.pure]
  | cons a l ih =>
    show (f a >>= fun _ => l.forM f) = .ok () ↔ _
    rw [bind_eq_ok_iff, List.forall_mem_cons, ih]
    constructor
    · rintro ⟨⟨⟩, first, rest⟩
      exact ⟨first, rest⟩
    · exact fun ⟨first, rest⟩ => ⟨(), first, rest⟩

/-- A pass over a list fails just when some element fails, and with the error of the first that
does. -/
theorem forM_eq_error_iff {f : α → Except ε Unit} {l : List α} {e : ε} :
    l.forM f = .error e ↔ ∃ before a after, l = before ++ a :: after ∧
      (∀ b ∈ before, f b = .ok ()) ∧ f a = .error e := by
  constructor
  · intro failed
    induction l with
    | nil => cases failed
    | cons a l ih =>
      change (f a >>= fun _ => l.forM f) = .error e at failed
      cases first : f a with
      | error other =>
        rw [first] at failed
        cases failed
        exact ⟨[], a, l, rfl, by simp, first⟩
      | ok =>
        rw [first] at failed
        obtain ⟨before, b, after, rfl, passed, stopped⟩ := ih failed
        exact ⟨a :: before, b, after, rfl, List.forall_mem_cons.2 ⟨first, passed⟩, stopped⟩
  · rintro ⟨before, a, after, rfl, passed, stopped⟩
    have front : forM before f = .ok () := forM_eq_ok_iff.2 passed
    change forM (before ++ a :: after) f = .error e
    rw [List.forM_append, front, List.forM_cons, stopped]
    rfl

theorem map_eq_error_iff {f : α → β} {x : Except ε α} {e : ε} :
    x.map f = .error e ↔ x = .error e := by
  cases x with
  | error e => simp [Except.map]
  | ok a => simp [Except.map]

theorem exists_error_of_mapM {f : α → Except ε β} {l : List α} {e : ε}
    (failed : l.mapM f = .error e) : ∃ a ∈ l, f a = .error e := by
  induction l with
  | nil => cases failed
  | cons a l ih =>
    rw [List.mapM_cons] at failed
    cases first : f a with
    | error other =>
      rw [first] at failed
      cases failed
      exact ⟨a, List.mem_cons_self .., first⟩
    | ok b =>
      rw [first] at failed
      cases rest : l.mapM f with
      | error other =>
        simp only [bind, Except.bind, rest] at failed
        cases failed
        obtain ⟨c, member, stopped⟩ := ih rest
        exact ⟨c, List.mem_cons_of_mem _ member, stopped⟩
      | ok bs =>
        simp only [bind, Except.bind, rest, pure, Except.pure] at failed
        cases failed

theorem foldlM_cons_eq_ok_iff {f : β → α → Except ε β} {a : α} {l : List α} {b c : β} :
    (a :: l).foldlM f b = .ok c ↔ ∃ m, f b a = .ok m ∧ l.foldlM f m = .ok c := by
  rw [List.foldlM_cons, bind_eq_ok_iff]

/-! ## Computations that may have no outcome -/

theorem mapM_eq_some_iff {f : α → Option β} {l : List α} {r : List β} :
    l.mapM f = some r ↔ List.Forall₂ (fun a b => f a = some b) l r := by
  induction l generalizing r with
  | nil => cases r <;> simp
  | cons a l ih =>
    simp only [List.mapM_cons, Option.bind_eq_bind, Option.bind_eq_some_iff, Option.pure_def,
      Option.some.injEq, ih]
    constructor
    · rintro ⟨b, first, bs, rest, rfl⟩
      exact .cons first rest
    · intro all
      cases all with
      | cons first rest => exact ⟨_, first, _, rest, rfl⟩

theorem mapM_eq_none_iff {f : α → Option β} {l : List α} :
    l.mapM f = none ↔ ∃ a ∈ l, f a = none := by
  induction l with
  | nil => simp
  | cons a l ih =>
    rw [List.exists_mem_cons_iff, ← ih, List.mapM_cons]
    cases f a with
    | none => simp
    | some b => cases l.mapM f <;> simp

end ApiSchema
