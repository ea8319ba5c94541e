import ApiSchema.Proofs.Document.Closed
import ApiSchema.Proofs.TypeExpr.Faults

/-!
# The first malformed type

A type stands at a place: in a parameter or a response of an operation, or in a property of a
definition. `Document.rank` orders the places as they are checked, those of templates behind those
of all other definitions wherever a template is listed. `Document.entries` goes over the places in
this order (`pairwise_entries`) and leaves out none at which there is a type (`mem_entries_iff`), and
the types that it meets are those that are checked (`map_snd_entries`). So an expansion stops at
the malformed type of least rank, whatever else is wrong (`check_stops_at_first_fault`).
-/

namespace ApiSchema

/-! ## Numbered lists -/

section

variable {α β : Type} (l : List α) (g : α → List β)

theorem pairwise_zipIdx : l.zipIdx.Pairwise fun a b => a.2 < b.2 := by
  rw [← List.pairwise_map (f := Prod.snd), List.zipIdx_map_snd]
  exact List.pairwise_lt_range'

theorem flatMap_zipIdx : (l.zipIdx.flatMap fun (a, _) => g a) = l.flatMap g := by
  conv_rhs => rw [← List.zipIdx_map_fst 0 l, List.flatMap_map]

theorem flatMap_filter_zipIdx (p : α → Bool) :
    ((l.zipIdx.filter (p ·.1)).flatMap fun (a, _) => g a) = (l.filter p).flatMap g := by
  conv_rhs => rw [← List.zipIdx_map_fst 0 l, List.filter_map, List.flatMap_map]
  rfl

end

/-! ## Places -/

/-- A place for a type. Operations, definitions and what they list are counted from zero. -/
inductive TypePlace where
  | parameter (operation index : Nat)
  | response (operation index : Nat)
  | property (definition index : Nat)

namespace Document

variable {d : Document}

/-- The type at a place. A response without a body has none. -/
def typeAt? (d : Document) : TypePlace → Option Text
  | .parameter i j => (d.operations[i]?.bind (·.parameters[j]?)).map Parameter.type
  | .response i j =>
    ((d.operations[i]?.bind (·.responses[j]?)).map Response.type).filter
      fun type => !(Text.trim type).isEmpty
  | .property i j => (d.definitions[i]?.bind (·.properties[j]?)).map Property.type

/-- Places are ordered by these lists, which are compared number by number: operation by operation,
the parameters before the responses; then the plain definitions; then the templates. -/
def rank (d : Document) : TypePlace → List Nat
  | .parameter i j => [0, i, 0, j]
  | .response i j => [0, i, 1, j]
  | .property i j => [if d.definitions[i]?.any Definition.isTemplate then 2 else 1, i, j]

/-! ## Going over the places -/

section Listed

variable {α : Type} (place : Nat → TypePlace) (type : α → Text) (l : List α)

/-- The types of what is listed, each with its place. -/
def listed : List (TypePlace × Text) :=
  l.zipIdx.map fun (a, i) => (place i, type a)

theorem map_snd_listed : (listed place type l).map Prod.snd = l.map type := by
  rw [listed, List.map_map]
  conv_rhs => rw [← List.zipIdx_map_fst 0 l, List.map_map]
  rfl

theorem mem_listed_iff {entry : TypePlace × Text} :
    entry ∈ listed place type l ↔ ∃ i a, l[i]? = some a ∧ (place i, type a) = entry := by
  simp only [listed, List.mem_map, Prod.exists, List.mk_mem_zipIdx_iff_getElem?]
  exact exists_comm

theorem pairwise_listed {r : TypePlace → List Nat}
    (ascends : ∀ i j, i < j → r (place i) < r (place j)) :
    (listed place type l).Pairwise fun a b => r a.1 < r b.1 := by
  rw [listed, List.pairwise_map]
  exact (pairwise_zipIdx l).imp fun less => ascends _ _ less

end Listed

/-- The types of an operation with their places. -/
def operationEntries (i : Nat) (o : Operation) : List (TypePlace × Text) :=
  listed (.parameter i) Parameter.type o.parameters
    ++ (listed (.response i) Response.type o.responses).filter
      fun entry => !(Text.trim entry.2).isEmpty

/-- The types of the plain definitions with their places, or those of the templates. -/
def definitionEntries (template : Bool) (d : Document) : List (TypePlace × Text) :=
  (d.definitions.zipIdx.filter (·.1.isTemplate == template)).flatMap
    fun (e, i) => listed (.property i) Property.type e.properties

/-- The types of a document with their places, as they are checked. -/
def entries (d : Document) : List (TypePlace × Text) :=
  d.operations.zipIdx.flatMap (fun (o, i) => operationEntries i o)
    ++ (definitionEntries false d ++ definitionEntries true d)

theorem mem_operationEntries_iff {i : Nat} {o : Operation} {entry : TypePlace × Text} :
    entry ∈ operationEntries i o ↔
      (∃ j q, o.parameters[j]? = some q ∧ (.parameter i j, q.type) = entry) ∨
        (∃ j r, o.responses[j]? = some r ∧ (.response i j, r.type) = entry) ∧
          Text.trim entry.2 ≠ [] := by
  simp only [operationEntries, List.mem_append, List.mem_filter, mem_listed_iff, Bool.not_eq_true',
    List.isEmpty_eq_false_iff, ne_eq]

theorem mem_definitionEntries_iff {template : Bool} {entry : TypePlace × Text} :
    entry ∈ definitionEntries template d ↔
      ∃ i e, d.definitions[i]? = some e ∧ e.isTemplate = template ∧
        ∃ j p, e.properties[j]? = some p ∧ (.property i j, p.type) = entry := by
  simp only [definitionEntries, List.mem_flatMap, List.mem_filter, Prod.exists,
    List.mk_mem_zipIdx_iff_getElem?, mem_listed_iff, beq_iff_eq, and_assoc]
  exact exists_comm

/-- Each definition is a template or none, so one of the two passes meets its properties. -/
theorem mem_definitionEntries_append_iff {entry : TypePlace × Text} :
    entry ∈ definitionEntries false d ++ definitionEntries true d ↔
      ∃ i e, d.definitions[i]? = some e ∧
        ∃ j p, e.properties[j]? = some p ∧ (.property i j, p.type) = entry := by
  rw [List.mem_append, mem_definitionEntries_iff, mem_definitionEntries_iff]
  constructor
  · rintro (⟨i, e, found, -, listed⟩ | ⟨i, e, found, -, listed⟩)
    · exact ⟨i, e, found, listed⟩
    · exact ⟨i, e, found, listed⟩
  · rintro ⟨i, e, found, listed⟩
    cases kind : e.isTemplate with
    | false => exact .inl ⟨i, e, found, kind, listed⟩
    | true => exact .inr ⟨i, e, found, kind, listed⟩

/-- No type is left out, and none is met at another place than its own. -/
theorem mem_entries_iff {place : TypePlace} {type : Text} :
    (place, type) ∈ d.entries ↔ d.typeAt? place = some type := by
  rw [entries, List.mem_append, mem_definitionEntries_append_iff, List.mem_flatMap]
  simp only [Prod.exists, List.mk_mem_zipIdx_iff_getElem?, mem_operationEntries_iff]
  cases place with
  | parameter i j => simp [typeAt?, Option.bind_eq_some_iff]
  | response i j =>
    simp only [typeAt?, Option.filter_eq_some_iff, Option.map_eq_some_iff, Option.bind_eq_some_iff]
    grind
  | property i j => simp [typeAt?, Option.bind_eq_some_iff]

/-! ## The order of the places -/

theorem rank_of_mem_operationEntries {i : Nat} {o : Operation} {entry : TypePlace × Text}
    (member : entry ∈ operationEntries i o) : ∃ part j, d.rank entry.1 = [0, i, part, j] := by
  rcases mem_operationEntries_iff.1 member with ⟨j, q, -, rfl⟩ | ⟨⟨j, r, -, rfl⟩, -⟩
  · exact ⟨0, j, rfl⟩
  · exact ⟨1, j, rfl⟩

theorem rank_of_mem_definitionEntries {template : Bool} {entry : TypePlace × Text}
    (member : entry ∈ definitionEntries template d) :
    ∃ i j, d.rank entry.1 = [if template then 2 else 1, i, j] := by
  obtain ⟨i, e, found, rfl, j, p, -, rfl⟩ := mem_definitionEntries_iff.1 member
  exact ⟨i, j, by rw [rank, found]; rfl⟩

theorem pairwise_operationEntries (i : Nat) (o : Operation) :
    (operationEntries i o).Pairwise fun a b => d.rank a.1 < d.rank b.1 := by
  refine List.pairwise_append.2 ⟨?_, ?_, ?_⟩
  · refine pairwise_listed _ _ _ fun j k less => ?_
    simp [rank, List.cons_lt_cons_iff, less]
  · refine (pairwise_listed _ _ _ fun j k less => ?_).filter _
    simp [rank, List.cons_lt_cons_iff, less]
  · intro a inParameters b inResponses
    obtain ⟨j, q, -, rfl⟩ := (mem_listed_iff ..).1 inParameters
    obtain ⟨k, r, -, rfl⟩ := (mem_listed_iff ..).1 (List.mem_of_mem_filter inResponses)
    simp [rank, List.cons_lt_cons_iff]

theorem pairwise_definitionEntries (template : Bool) (d : Document) :
    (definitionEntries template d).Pairwise fun a b => d.rank a.1 < d.rank b.1 := by
  refine List.pairwise_flatMap.2 ⟨?_, ?_⟩
  · rintro ⟨e, i⟩ -
    refine pairwise_listed _ _ _ fun j k less => ?_
    simp [rank, List.cons_lt_cons_iff, less]
  · refine ((pairwise_zipIdx _).filter _).imp_of_mem ?_
    rintro ⟨e, i⟩ ⟨e', i'⟩ member member' less a inFirst b inSecond
    dsimp only at less
    obtain ⟨j, p, -, rfl⟩ := (mem_listed_iff ..).1 inFirst
    obtain ⟨k, q, -, rfl⟩ := (mem_listed_iff ..).1 inSecond
    simp only [List.mem_filter, List.mk_mem_zipIdx_iff_getElem?, beq_iff_eq] at member member'
    simp [rank, member, member', List.cons_lt_cons_iff, less]

theorem pairwise_entries (d : Document) :
    d.entries.Pairwise fun a b => d.rank a.1 < d.rank b.1 := by
  refine List.pairwise_append.2 ⟨List.pairwise_flatMap.2 ⟨?_, ?_⟩, List.pairwise_append.2
    ⟨pairwise_definitionEntries false d, pairwise_definitionEntries true d, ?_⟩, ?_⟩
  · rintro ⟨o, i⟩ -
    exact pairwise_operationEntries i o
  · refine (pairwise_zipIdx _).imp ?_
    rintro ⟨o, i⟩ ⟨o', i'⟩ less a inFirst b inSecond
    dsimp only at less
    obtain ⟨part, j, rankFirst⟩ := rank_of_mem_operationEntries (d := d) inFirst
    obtain ⟨part', k, rankSecond⟩ := rank_of_mem_operationEntries (d := d) inSecond
    simp [rankFirst, rankSecond, List.cons_lt_cons_iff, less]
  · intro a inPlain b inTemplates
    obtain ⟨i, j, rankFirst⟩ := rank_of_mem_definitionEntries inPlain
    obtain ⟨i', k, rankSecond⟩ := rank_of_mem_definitionEntries inTemplates
    simp [rankFirst, rankSecond, List.cons_lt_cons_iff]
  · intro a inOperations b inDefinitions
    obtain ⟨⟨o, i⟩, -, inOperation⟩ := List.mem_flatMap.1 inOperations
    obtain ⟨part, j, rankFirst⟩ := rank_of_mem_operationEntries (d := d) inOperation
    have later : ∃ kind i' k, d.rank b.1 = [kind + 1, i', k] := by
      rcases List.mem_append.1 inDefinitions with inPlain | inTemplates
      · obtain ⟨i', k, rankSecond⟩ := rank_of_mem_definitionEntries inPlain
        exact ⟨0, i', k, rankSecond⟩
      · obtain ⟨i', k, rankSecond⟩ := rank_of_mem_definitionEntries inTemplates
        exact ⟨1, i', k, rankSecond⟩
    obtain ⟨kind, i', k, rankSecond⟩ := later
    simp [rankFirst, rankSecond, List.cons_lt_cons_iff]

/-! ## What is checked -/

theorem map_snd_operationEntries (i : Nat) (o : Operation) :
    (operationEntries i o).map Prod.snd = o.types := by
  have bodies := List.filter_map (f := Prod.snd) (p := fun type => !(Text.trim type).isEmpty)
    (l := listed (.response i) Response.type o.responses)
  rw [map_snd_listed] at bodies
  rw [operationEntries, List.map_append, map_snd_listed, Operation.types, bodies]
  rfl

theorem map_snd_definitionEntries (template : Bool) (d : Document) :
    (definitionEntries template d).map Prod.snd =
      (d.definitions.filter (·.isTemplate == template)).flatMap Definition.types := by
  rw [definitionEntries, List.map_flatMap,
    ← flatMap_filter_zipIdx d.definitions Definition.types (·.isTemplate == template)]
  simp only [map_snd_listed]
  rfl

/-- The places hold the types that are checked. -/
theorem map_snd_entries (d : Document) :
    d.entries.map Prod.snd = d.referencedTypes ++ d.templates.flatMap Definition.types := by
  have operations : (d.operations.zipIdx.flatMap fun (o, i) => operationEntries i o).map Prod.snd =
      d.operations.flatMap Operation.types := by
    rw [List.map_flatMap, ← flatMap_zipIdx d.operations Operation.types]
    simp only [map_snd_operationEntries]
  rw [entries, List.map_append, List.map_append, operations, map_snd_definitionEntries,
    map_snd_definitionEntries, referencedTypes, plainDefinitions, templates, List.append_assoc]
  simp only [beq_false, beq_true]

theorem checkTypes_eq (d : Document) :
    d.checkTypes = d.entries.forM fun entry => TypeExpr.check entry.2 := by
  have whole : d.checkTypes =
      forM (d.referencedTypes ++ d.templates.flatMap Definition.types) TypeExpr.check :=
    List.forM_append.symm
  rw [whole, ← map_snd_entries, List.forM_map]
  rfl

/-! ## The first fault -/

/-- The type at this place fails the check with this error, and all types of lower rank pass. -/
structure FirstFault (d : Document) (place : TypePlace) (e : TypeError) : Prop where
  fails : ∃ type, d.typeAt? place = some type ∧ TypeExpr.check type = .error e
  first : ∀ earlier type, d.typeAt? earlier = some type → d.rank earlier < d.rank place →
    TypeExpr.check type = .ok ()

theorem checkTypes_eq_error_iff {e : TypeError} :
    d.checkTypes = .error e ↔ ∃ place, d.FirstFault place e := by
  have ascending := pairwise_entries d
  rw [checkTypes_eq, forM_eq_error_iff]
  constructor
  · rintro ⟨before, ⟨place, type⟩, after, split, passed, failed⟩
    rw [split, List.pairwise_append, List.pairwise_cons] at ascending
    have known : (place, type) ∈ d.entries := by simp [split]
    refine ⟨place, ⟨type, mem_entries_iff.1 known, failed⟩, fun earlier other found less => ?_⟩
    have member := mem_entries_iff.2 found
    rw [split] at member
    -- of the types behind this one, none has a lower rank
    rcases List.mem_append.1 member with inFront | behind
    · exact passed _ inFront
    · rcases List.mem_cons.1 behind with same | later
      · cases same
        exact absurd less (List.lt_irrefl _)
      · exact absurd less (List.lt_asymm (ascending.2.1.1 _ later))
  · rintro ⟨place, ⟨type, found, failed⟩, first⟩
    obtain ⟨before, after, split⟩ := List.append_of_mem (mem_entries_iff.2 found)
    refine ⟨before, (place, type), after, split, fun entry inFront => ?_, failed⟩
    have member : entry ∈ d.entries := split ▸ List.mem_append_left _ inFront
    rw [split, List.pairwise_append] at ascending
    exact first entry.1 entry.2 (mem_entries_iff.1 member)
      (ascending.2.2 _ inFront _ (List.mem_cons_self ..))

theorem checkTypes_eq_ok_iff_typeAt? :
    d.checkTypes = .ok () ↔
      ∀ place type, d.typeAt? place = some type → TypeExpr.check type = .ok () := by
  rw [checkTypes_eq, forM_eq_ok_iff, Prod.forall]
  simp only [mem_entries_iff]

theorem expand_of_checkTypes_eq_error {e : TypeError} (failed : d.checkTypes = .error e)
    (depth : Nat) : d.expand depth = .error (.error e) := by
  rw [expand, failed]
  rfl

/-- The types of a document pass the check exactly if the type at each place does. If the type at
some place does not, there is a first such place, and both the check and the expansion of the
document stop with the error of the type there, whatever the expansion would have met later. -/
theorem check_stops_at_first_fault (d : Document) :
    (d.checkTypes = .ok () ↔
        ∀ place type, d.typeAt? place = some type → TypeExpr.check type = .ok ()) ∧
      (∀ place type e, d.typeAt? place = some type → TypeExpr.check type = .error e →
        ∃ first fault, d.FirstFault first fault) ∧
      ∀ first fault, d.FirstFault first fault →
        (∃ piece reason, fault = .malformed piece reason) ∧ d.checkTypes = .error fault ∧
          ∀ depth, d.expand depth = .error (.error fault) := by
  refine ⟨checkTypes_eq_ok_iff_typeAt?, fun place type e found failed => ?_,
    fun first fault isFirst => ?_⟩
  · cases checked : d.checkTypes with
    | ok =>
      have passed := checkTypes_eq_ok_iff_typeAt?.1 checked place type found
      rw [passed] at failed
      cases failed
    | error fault =>
      obtain ⟨first, isFirst⟩ := checkTypes_eq_error_iff.1 checked
      exact ⟨first, fault, isFirst⟩
  · obtain ⟨type, -, failed⟩ := isFirst.fails
    have stopped := checkTypes_eq_error_iff.2 ⟨first, isFirst⟩
    exact ⟨exists_malformed_of_parseLevel (check_eq_error_iff.1 failed), stopped,
      expand_of_checkTypes_eq_error stopped⟩

/-- A parameter that is no identifier, an unknown template, a wrong number of arguments, and two
malformed types. The one in the template is listed before the other and checked behind it. -/
def muddledShelves : Document where
  operations := [
    { Operation.new "get".toList "/shelves".toList [] with
      parameters := [{ name := "limit".toList, type := "integer#int64".toList }]
      responses := [{ code := 204, type := " ".toList },
        { code := 200, type := "Missing<Shelf>".toList }] },
    { Operation.new "put".toList "/shelves".toList [] with
      responses := [{ code := 200, type := "Page<Shelf, Shelf>".toList }] }]
  definitions := [
    { name := "Odd".toList
      parameters := ["T-1".toList]
      properties := [.new "rows".toList "array#T".toList true []] },
    { name := "Page".toList
      parameters := ["T".toList]
      properties := [.new "rows".toList "T[]".toList true []] },
    { name := "Shelf".toList
      properties := [.new "name".toList "string".toList true [],
        .new "tags".toList "Tag<>".toList true []] }]

theorem check_stops_at_first_fault_muddledShelves :
    muddledShelves.typeAt? (.property 0 0) = some "array#T".toList ∧
      TypeExpr.check "array#T".toList = .error (.malformed "array#T".toList .formatOnMeta) ∧
      (∃ first fault, muddledShelves.FirstFault first fault) ∧
      muddledShelves.FirstFault (.property 2 1) (.malformed "Tag<>".toList .noArguments) ∧
      muddledShelves.checkTypes = .error (.malformed "Tag<>".toList .noArguments) ∧
      ∀ depth, muddledShelves.expand depth =
        .error (.error (.malformed "Tag<>".toList .noArguments)) := by
  obtain ⟨-, exists_first, stops⟩ := check_stops_at_first_fault muddledShelves
  have found : muddledShelves.typeAt? (.property 0 0) = some "array#T".toList := by decide +kernel
  have failed : TypeExpr.check "array#T".toList =
      .error (.malformed "array#T".toList .formatOnMeta) := by decide +kernel
  have passed : ∀ entry ∈ muddledShelves.entries,
      muddledShelves.rank entry.1 < muddledShelves.rank (.property 2 1) →
      TypeExpr.check entry.2 = .ok () := by decide +kernel
  have first : muddledShelves.FirstFault (.property 2 1)
      (.malformed "Tag<>".toList .noArguments) :=
    { fails := ⟨"Tag<>".toList, by decide +kernel, by decide +kernel⟩
      first := fun earlier type known less => passed (earlier, type) (mem_entries_iff.2 known) less }
  obtain ⟨-, checked, expanded⟩ := stops _ _ first
  exact ⟨found, failed, exists_first _ _ _ found failed, first, checked, expanded⟩

end Document

end ApiSchema
