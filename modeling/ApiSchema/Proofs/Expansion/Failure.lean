import Mathlib.Control.Monad.Basic
import Mathlib.Data.List.Nodup
import ApiSchema.Proofs.Expansion.Progress
import ApiSchema.Proofs.Expansion.Reached

/-!
# Calls that stop

A call that stops has come, through instances that it began, to a type that cannot be requested or
lies too deep. `StopsAt` describes the way there, and `exists_stopsAt` finds it for every call that
stops. The instances on the way stay marked as in progress, so that a later call takes them for
instances that are being made.

`After definitions history x` collects the states that any calls lead to. In such a state a call
that succeeds registers what it was asked for unless that is marked, and a mark is there because an
earlier call failed that demanded the instance (`extract_registers_iff`).
-/

namespace ApiSchema

open Relation

namespace Expander

variable {c : Catalog} {x y : Expander} {depth : Nat} {type : Text}

/-! ## The way to where a call stops -/

/-- A call with the type `type` in the state `x` stops at the type `last`, below the instances
`names`, and leaves the state `y`. -/
structure StopsAt (c : Catalog) (depth : Nat) (x : Expander) (type : Text) (stop : Stop)
    (y : Expander) (names : List Text) (last : Text) : Prop where
  leads : c.Leads type names last
  marks : y.inProgress = names ++ x.inProgress
  nodup : names.Nodup
  fresh : ∀ name ∈ names, name ∉ x.inProgress
  cause : stop = .tooDeep ∧ names.length = depth ∨
    ∃ e, stop = .error e ∧ x.request last = .error e

/-- The way down goes through one more instance. -/
theorem StopsAt.above {z : Expander} {name other last : Text} {names : List Text} {stop : Stop}
    (stops : StopsAt c depth z other stop y names last) (templates : z.templates = x.templates)
    (marks : z.inProgress = name :: x.inProgress) (idle : name ∉ x.inProgress)
    (shown : displayName? type = some name) (call : c.Calls type other) :
    StopsAt c (depth + 1) x type stop y (names ++ [name]) last := by
  have apart : ∀ inner ∈ names, inner ≠ name ∧ inner ∉ x.inProgress := by
    intro inner member
    have fresh := stops.fresh inner member
    rw [marks] at fresh
    exact not_or.1 fun known => fresh (List.mem_cons.2 known)
  refine ⟨.call shown call stops.leads, ?_, ?_, ?_, ?_⟩
  · rw [stops.marks, marks, List.append_assoc]
    rfl
  · refine List.nodup_append.2 ⟨stops.nodup, List.nodup_singleton name, fun inner member own => ?_⟩
    rintro last rfl
    exact (apart inner member).1 (List.mem_singleton.1 last)
  · intro inner member
    rcases List.mem_append.1 member with below | own
    · exact (apart inner below).2
    · rwa [List.mem_singleton.1 own]
  · rcases stops.cause with ⟨deep, length⟩ | ⟨e, failed, refused⟩
    · exact Or.inl ⟨deep, by rw [List.length_append, length, List.length_singleton]⟩
    · exact Or.inr ⟨e, failed, by rw [← request_congr templates, refused]⟩

/-- A call that stops does so at a type that it came to. -/
theorem exists_stopsAt (draws : DrawsOn c x) {stop : Stop}
    (run : x.extract depth type = (.error stop, y)) :
    ∃ names last, StopsAt c depth x type stop y names last := by
  induction depth generalizing x type with
  | zero =>
    cases run
    exact ⟨[], type, .here type, rfl, List.nodup_nil, by simp, Or.inl ⟨rfl, rfl⟩⟩
  | succ depth ih =>
    rcases extract_eq_error run with
      ⟨e, refused, failed, rfl⟩ | ⟨template, arguments, asked, unknown, visited⟩
    · exact ⟨[], type, .here type, rfl, List.nodup_nil, by simp, Or.inr ⟨e, failed, refused⟩⟩
    · obtain ⟨before, p, after, z, split, visits, unregistered, stopped⟩ :=
        exists_stop_of_visit visited
      obtain ⟨walked, marks⟩ := visits.continues continues_of_extract_ok
      have continues := (continues_begin unknown).trans walked
      have drawsBelow : DrawsOn c z := continues.drawsOn draws
      obtain ⟨names, last, stops⟩ := ih drawsBelow stopped
      have made := draws.instance?_of_request asked
      obtain ⟨unmade, idle⟩ := isKnown_eq_false_iff.1 unknown
      have member : p ∈ (template.instantiate arguments).properties := by
        rw [split]
        exact List.mem_append_right _ (List.mem_cons_self ..)
      have call : c.Calls type p.type :=
        ⟨_, made, fun taken => unmade (draws.plain _ taken), ⟨p, member, rfl⟩,
          fun taken => unregistered (drawsBelow.plain _ taken)⟩
      exact ⟨names ++ [template.instanceName arguments], last,
        stops.above continues.templates marks idle (Catalog.displayName?_of_instance? made) call⟩

/-- Extraction one after the other stops with the first call that stops. -/
theorem extractAll_eq_error {types : List Text} {stop : Stop} (draws : DrawsOn c x)
    (run : x.extractAll depth types = .error stop) :
    ∃ type ∈ types, ∃ z y, DrawsOn c z ∧ z.extract depth type = (.error stop, y) := by
  induction types generalizing x with
  | nil => cases run
  | cons type types ih =>
    rw [extractAll] at run
    split at run
    · rename_i y extracted
      obtain ⟨other, member, rest⟩ := ih ((continues_of_extract_ok extracted).1.drawsOn draws) run
      exact ⟨other, List.mem_cons_of_mem _ member, rest⟩
    · rename_i other y stopped
      cases run
      exact ⟨type, List.mem_cons_self .., x, y, draws, stopped⟩

/-! ## States after any calls -/

/-- The states that calls lead to, each call with its type and its outcome, in order. -/
inductive After (definitions : List Definition) : List (Text × Except Stop Unit) → Expander → Prop
  | start {x : Expander} : ofDefinitions definitions = .ok x → After definitions [] x
  | call {history : List (Text × Except Stop Unit)} {x y : Expander} {depth : Nat} {type : Text}
    {outcome : Except Stop Unit} : After definitions history x →
    x.extract depth type = (outcome, y) → After definitions (history ++ [(type, outcome)]) y

namespace After

variable {definitions : List Definition} {history : List (Text × Except Stop Unit)}

theorem drawsOn (after : After definitions history x) :
    DrawsOn (Catalog.ofDefinitions definitions) x := by
  induction after with
  | start started => exact drawsOn_ofDefinitions started
  | call _ run ih => exact (continues_of_extract run).1.drawsOn ih

theorem orderly (after : After definitions history x) : x.Orderly := by
  induction after with
  | start started =>
    obtain ⟨-, -, -, -, idle⟩ := ofDefinitions_eq_ok started
    exact ⟨by rw [idle]; exact List.nodup_nil, by rw [idle]; simp⟩
  | call _ run ih => exact (continues_of_extract run).1.orderly ih

/-- A mark is left by a call that failed and demanded the instance. -/
theorem exists_failed_of_marked (after : After definitions history x) {name : Text}
    (marked : name ∈ x.inProgress) :
    ∃ call ∈ history, call.2 ≠ .ok () ∧
      (Catalog.ofDefinitions definitions).Demanded [call.1] name := by
  induction after with
  | start started =>
    obtain ⟨-, -, -, -, idle⟩ := ofDefinitions_eq_ok started
    rw [idle] at marked
    cases marked
  | @call history x y depth type outcome after run ih =>
    have earlier (known : name ∈ x.inProgress) :
        ∃ call ∈ history ++ [(type, outcome)], call.2 ≠ .ok () ∧
          (Catalog.ofDefinitions definitions).Demanded [call.1] name := by
      obtain ⟨call, member, failed⟩ := ih known
      exact ⟨call, List.mem_append_left _ member, failed⟩
    cases outcome with
    | ok =>
      rw [(continues_of_extract run).2 rfl] at marked
      exact earlier marked
    | error stop =>
      obtain ⟨names, last, stops⟩ := exists_stopsAt after.drawsOn run
      rw [stops.marks] at marked
      rcases List.mem_append.1 marked with left | known
      · refine ⟨(type, .error stop), List.mem_append_right _ (List.mem_singleton_self _), ?_, ?_⟩
        · exact fun success => by cases success
        · exact stops.leads.demanded ⟨type, List.mem_singleton_self _, .refl⟩ name left
      · exact earlier known

end After

/-- What is asked for is registered by a call that succeeds, or it is marked and nothing is
done. -/
theorem mem_keys_or_marked (draws : DrawsOn c x) {name : Text}
    (shown : displayName? type = some name) (run : x.extract depth type = (.ok (), y)) :
    name ∈ y.registry.keys ∨ name ∈ x.inProgress ∧ y = x := by
  cases depth with
  | zero => cases run
  | succ depth =>
    rcases extract_eq_ok run with ⟨asked, -⟩ | ⟨template, arguments, asked, outcome⟩
    · rw [displayName?, request_eq_none asked] at shown
      cases shown
    · have displayed := Catalog.displayName?_of_instance? (draws.instance?_of_request asked)
      rw [shown] at displayed
      obtain rfl : name = template.instanceName arguments := Option.some.inj displayed
      rcases outcome with ⟨known, rfl⟩ | ⟨-, z, -, rfl⟩
      · exact (isKnown_eq_true_iff.1 known).imp_right fun marked => ⟨marked, rfl⟩
      · exact Or.inl (Registry.mem_keys_insertIfAbsent.2 (Or.inr rfl))

/-- In a state after any calls, a call that succeeds registers the instance that it was asked for
exactly if that is not marked as in progress, and it is marked only if an earlier call failed that
demanded it. -/
theorem extract_registers_iff {definitions : List Definition}
    {history : List (Text × Except Stop Unit)} {name : Text}
    (after : After definitions history x) (shown : displayName? type = some name)
    (run : x.extract depth type = (.ok (), y)) :
    (name ∈ y.registry.keys ↔ name ∉ x.inProgress) ∧
      (name ∈ x.inProgress → ∃ call ∈ history, call.2 ≠ .ok () ∧
        (Catalog.ofDefinitions definitions).Demanded [call.1] name) := by
  refine ⟨⟨fun registered marked => ?_, fun unmarked => ?_⟩, after.exists_failed_of_marked⟩
  · have kept : name ∈ y.inProgress := by rwa [(continues_of_extract run).2 rfl]
    exact ((continues_of_extract run).1.orderly after.orderly).unregistered name kept registered
  · rcases mem_keys_or_marked after.drawsOn shown run with registered | ⟨marked, -⟩
    · exact registered
    · exact (unmarked marked).elim

/-- Boxes whose content is of a template that is missing, and shelves of boxes. -/
def boxesOfMissing : List Definition := [
  { name := "Box".toList
    parameters := ["T".toList]
    properties := [.new "content".toList "Missing<T>".toList true []] },
  { name := "Shelf".toList
    parameters := ["T".toList]
    properties := [.new "boxes".toList "Box<T>[]".toList true []] }]

/-- Asking for a box fails and leaves the box marked. -/
theorem exists_after_box :
    ∃ x, After boxesOfMissing [("Box<Item>".toList,
        .error (.error (.unknownTemplate "Missing<Item>".toList "Missing".toList)))] x ∧
      x.inProgress = ["Box<Item>".toList] ∧
      (x.extract 5 "Box<Item>".toList).1 = .ok () ∧
      (x.extract 5 "Box<Item>".toList).2.registry.keys = [] ∧
      (x.extract 5 " Shelf< Item >[]".toList).1 = .ok () := by
  have runs : (ofDefinitions boxesOfMissing).toOption.any (fun start =>
      let x := (start.extract 5 "Box<Item>".toList).2
      decide ((start.extract 5 "Box<Item>".toList).1 =
          .error (.error (.unknownTemplate "Missing<Item>".toList "Missing".toList)) ∧
        x.inProgress = ["Box<Item>".toList] ∧
        (x.extract 5 "Box<Item>".toList).1 = .ok () ∧
        (x.extract 5 "Box<Item>".toList).2.registry.keys = [] ∧
        (x.extract 5 " Shelf< Item >[]".toList).1 = .ok ())) = true := by
    decide +kernel
  obtain ⟨start, found, runs⟩ := (Option.any_eq_true ..).1 runs
  obtain ⟨failed, rest⟩ := of_decide_eq_true runs
  exact ⟨(start.extract 5 "Box<Item>".toList).2,
    .call (.start (toOption_eq_some_iff.1 found)) (Prod.ext failed rfl), rest⟩

theorem extract_registers_shelf :
    ∃ x y, After boxesOfMissing [("Box<Item>".toList,
        .error (.error (.unknownTemplate "Missing<Item>".toList "Missing".toList)))] x ∧
      displayName? " Shelf< Item >[]".toList = some "Shelf<Item>".toList ∧
      x.extract 5 " Shelf< Item >[]".toList = (.ok (), y) ∧
      x.inProgress = ["Box<Item>".toList] ∧ "Shelf<Item>".toList ∈ y.registry.keys := by
  obtain ⟨x, after, marks, -, -, done⟩ := exists_after_box
  have shown : displayName? " Shelf< Item >[]".toList = some "Shelf<Item>".toList := by
    decide +kernel
  have unmarked : "Shelf<Item>".toList ∉ x.inProgress := by
    rw [marks]
    decide
  have run : x.extract 5 " Shelf< Item >[]".toList =
      (.ok (), (x.extract 5 " Shelf< Item >[]".toList).2) := Prod.ext done rfl
  exact ⟨x, _, after, shown, run, marks, (extract_registers_iff after shown run).1.2 unmarked⟩

/-- Asking once more for what failed succeeds without registering it. -/
theorem extract_succeeds_without_registering :
    ¬ ∀ (definitions : List Definition) (history : List (Text × Except Stop Unit))
      (x y : Expander) (depth : Nat) (type name : Text), After definitions history x →
      displayName? type = some name → x.extract depth type = (.ok (), y) →
      name ∈ y.registry.keys := by
  intro registers
  obtain ⟨x, after, -, done, keys, -⟩ := exists_after_box
  have registered := registers boxesOfMissing _ x _ 5 "Box<Item>".toList "Box<Item>".toList after
    (by decide +kernel) (Prod.ext done rfl)
  rw [keys] at registered
  cases registered

end Expander

end ApiSchema
