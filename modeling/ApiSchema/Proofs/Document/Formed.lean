import ApiSchema.Proofs.Document.Closed
import ApiSchema.Proofs.Expansion.Refusal

/-!
# Where malformed types come from

A document is checked before it is expanded, so a malformed type that stops an expansion has arisen
by instantiation. There is one way for that: a parameter stands in front of a `<`, and an argument
that is no bare name takes its place. `Document.malformed_only_by_application` says so: where no
template applies a parameter, all types that instances give rise to are well formed
(`Document.check_of_spawns`), however long the chain of instances.
-/

namespace ApiSchema

open Relation

/-! ## Names in front of a bracket -/

instance (word text : Text) : Decidable (Applied word text) :=
  inferInstanceAs (Decidable (_ <:+: _))

/-- Two neighbours that stand on one side of a separator. -/
theorem infix_of_separated {α : Type} {a b m : α} {front back : List α}
    (inside : [a, b] <:+: front ++ m :: back) (ha : a ≠ m) (hb : b ≠ m) :
    [a, b] <:+: front ∨ [a, b] <:+: back := by
  induction front with
  | nil =>
    rcases List.infix_cons_iff.1 inside with start | later
    · exact absurd (List.cons_prefix_cons.1 start).1 ha
    · exact .inr later
  | cons c front ih =>
    rcases List.infix_cons_iff.1 inside with start | later
    · obtain ⟨rfl, next⟩ := List.cons_prefix_cons.1 start
      cases front with
      | nil => exact absurd (List.cons_prefix_cons.1 next).1 hb
      | cons d front =>
        obtain ⟨rfl, -⟩ := List.cons_prefix_cons.1 next
        exact .inl ⟨[], front, rfl⟩
    · exact (ih later).imp_left fun inner => inner.trans (List.suffix_cons _ _).isInfix

/-- What is applied in a list of parts is applied in one of them. -/
theorem exists_applied_of_join {word : Text} {parts : List Text}
    (applied : Applied word (Text.join [','] parts)) : ∃ part ∈ parts, Applied word part := by
  induction parts with
  | nil =>
    rw [Applied, Text.join_nil, Token.scan_nil] at applied
    cases List.infix_nil.1 applied
  | cons part parts ih =>
    by_cases last : parts = []
    · rw [last, Text.join_singleton] at applied
      exact ⟨part, List.mem_cons_self .., applied⟩
    · rw [Applied, Text.join_cons_of_ne_nil _ _ last, List.append_assoc, List.singleton_append,
        Token.scan_append_mark part (by decide)] at applied
      rcases infix_of_separated applied (by simp) (by simp) with own | later
      · exact ⟨part, List.mem_cons_self .., own⟩
      · obtain ⟨other, member, inner⟩ := ih later
        exact ⟨other, List.mem_cons_of_mem _ member, inner⟩

theorem not_applied_of_isIdentifier {word name : Text} (proper : isIdentifier name = true) :
    ¬ Applied word name := by
  intro applied
  rw [Applied, Token.scan_word (ne_nil_of_isIdentifier proper) (isWordChar_of_isIdentifier proper)]
    at applied
  have short := applied.length_le
  simp at short

/-- In a derived text no blank separates a name from its bracket. -/
theorem Derives.infix_of_applied {word text : Text} {t : TypeExpr} (derives : Derives text t)
    (applied : Applied word text) : word ++ ['<'] <:+: text := by
  induction derives with
  | name name => exact absurd applied (not_applied_of_isIdentifier name)
  | @format head format kind name _ formed =>
    have listed := applied.subset (List.mem_cons_of_mem _ (List.mem_singleton_self _))
    rw [Token.scan_append_mark head (by decide),
      Token.scan_word (ne_nil_of_isIdentifier name) (isWordChar_of_isIdentifier name)] at listed
    by_cases empty : format = []
    · rw [empty, Token.scan_nil] at listed
      simp at listed
    · rw [Token.scan_word empty (isWordChar_of_isFormat formed)] at listed
      simp at listed
  | @generic head segments name _ padded _ _ ih =>
    rw [Applied,
      Token.scan_generic (ne_nil_of_isIdentifier name) (isWordChar_of_isIdentifier name),
      List.cons_append, List.singleton_append] at applied
    rcases List.infix_cons_iff.1 applied with start | later
    · obtain ⟨same, -⟩ := List.cons_prefix_cons.1 start
      cases same
      exact ⟨[], Text.join [','] (segments.map Segment.text) ++ ['>'], by simp⟩
    · rcases List.infix_cons_iff.1 later with start | inside
      · cases (List.cons_prefix_cons.1 start).1
      · rcases infix_of_separated inside (by simp) (by simp) with inner | behind
        · obtain ⟨part, member, own⟩ := exists_applied_of_join inner
          obtain ⟨segment, listed, rfl⟩ := List.mem_map.1 member
          have blanks := padded segment listed
          cases segment with
          | blank text =>
            rw [Applied, Segment.text, Token.scan_isBlank blanks] at own
            cases List.infix_nil.1 own
          | argument before core after tree =>
            rw [Applied, Segment.text, Token.scan_padded blanks.1 blanks.2] at own
            have written := (ih before core after tree listed own).trans
              ⟨before, after, rfl⟩
            exact (written.trans (Text.infix_join_of_mem [','] member)).trans
              ⟨head ++ ['<'], ['>'], by simp⟩
        · cases List.infix_nil.1 behind
  | array _ ih =>
    rw [Applied, Token.scan_array] at applied
    rcases infix_of_separated applied (by simp) (by simp) with inner | behind
    · exact (ih inner).trans (List.prefix_append _ _).isInfix
    · have short := behind.length_le
      simp at short

/-! ## Documents -/

/-- Some template has a property in whose type one of its own parameters stands, as a whole word,
directly in front of a `<`. -/
def Document.AppliesParameter (d : Document) : Prop :=
  ∃ source ∈ d.templates, ∃ p ∈ source.properties, ∃ parameter ∈ source.parameters,
    Applied parameter p.type ∧ parameter ++ ['<'] <:+: p.type

instance (d : Document) : Decidable d.AppliesParameter :=
  inferInstanceAs (Decidable (∃ source ∈ d.templates, ∃ p ∈ source.properties,
    ∃ parameter ∈ source.parameters, _ ∧ _))

/-- The instance that `type` refers to has a property of type `other`. -/
def Catalog.Spawns (c : Catalog) (type other : Text) : Prop :=
  ∃ e, c.instance? type = some e ∧ ∃ p ∈ e.properties, p.type = other

theorem Catalog.Calls.spawns {c : Catalog} {type other : Text} (calls : c.Calls type other) :
    c.Spawns type other := by
  obtain ⟨e, made, -, listed, -⟩ := calls
  exact ⟨e, made, listed⟩

namespace Document

variable {d : Document}

/-- In a checked document that applies no parameter, instances have well-formed properties. -/
theorem check_of_spawns (checked : d.checkTypes = .ok ()) (unapplied : ¬ d.AppliesParameter)
    {type other : Text} (spawns : (Catalog.ofDefinitions d.definitions).Spawns type other) :
    TypeExpr.check other = .ok () := by
  obtain ⟨e, made, p, member, rfl⟩ := spawns
  obtain ⟨source, trees, last, names, -, derived, arity, rfl⟩ := exists_trees_of_instance? made
  obtain ⟨q, listed, rfl⟩ := List.mem_map.1 member
  obtain ⟨given, isTemplate, -⟩ := mem_of_templateNamed last
  have template : source ∈ d.templates := List.mem_filter.2 ⟨given, isTemplate⟩
  obtain ⟨t, parsed⟩ :=
    check_eq_ok_iff.1 ((checkTypes_eq_ok_iff.1 checked).2 source template q listed)
  have derives := parse_eq_ok_iff.1 parsed
  have plain : ∀ parameter ∈ source.parameters, ¬ Applied parameter q.type := by
    intro parameter own applied
    obtain ⟨before, after, -, -, split⟩ := Text.exists_trim_padding q.type
    have written := derives.infix_of_applied (applied_trim_iff.2 applied)
    refine unapplied ⟨source, template, q, listed, parameter, own, applied, ?_⟩
    rw [split]
    exact written.trans ⟨before, after, rfl⟩
  obtain ⟨result, filled, -⟩ := derives_filledType names derived arity derives plain
  exact check_eq_ok_iff.2 ⟨result, parse_of_derives filled⟩

/-- In a checked document that applies no parameter, no chain of instances leads from its types to
a malformed one. -/
theorem check_of_chain (checked : d.checkTypes = .ok ()) (unapplied : ¬ d.AppliesParameter)
    {given type : Text} (referenced : given ∈ d.referencedTypes)
    (chain : ReflTransGen (Catalog.ofDefinitions d.definitions).Spawns given type) :
    TypeExpr.check type = .ok () := by
  cases chain with
  | refl => exact (checkTypes_eq_ok_iff.1 checked).1 given referenced
  | tail _ last => exact check_of_spawns checked unapplied last

theorem expand_eq_error {depth : Nat} {stop : Stop} (checked : d.checkTypes = .ok ())
    (failed : d.expand depth = .error stop) :
    expandAll depth d.definitions d.referencedTypes = .error stop := by
  rw [expand, checked] at failed
  exact failed

/-- Let the types of a document be well formed. If its expansion stops at a malformed type, some
template applies one of its own parameters. In a document where none does, every chain of instances
that starts at a type of the document leads to well-formed types only. -/
theorem malformed_only_by_application (checked : d.checkTypes = .ok ()) :
    (∀ depth type reason, d.expand depth = .error (.error (.malformed type reason)) →
        d.AppliesParameter) ∧
      (¬ d.AppliesParameter → ∀ given ∈ d.referencedTypes, ∀ type,
        ReflTransGen (Catalog.ofDefinitions d.definitions).Spawns given type →
        TypeExpr.check type = .ok ()) := by
  refine ⟨fun depth type reason failed => ?_, fun unapplied given referenced type chain =>
    check_of_chain checked unapplied referenced chain⟩
  by_contra unapplied
  rcases expandAll_eq_error (expand_eq_error checked failed) with ⟨e, unstarted, same⟩ | started
  · obtain ⟨name, parameter, -, rfl⟩ := Expander.ofDefinitions_eq_error.1 unstarted
    cases same
  · obtain ⟨x, started, stopped⟩ := started
    obtain ⟨last, ⟨given, referenced, calls⟩, refuses⟩ :=
      Expander.exists_refused (drawsOn_ofDefinitions started) stopped
    have chain := ReflTransGen.mono (fun _ _ => Catalog.Calls.spawns) _ _ calls
    obtain ⟨t, parsed⟩ := check_eq_ok_iff.1 (check_of_chain checked unapplied referenced chain)
    cases refuses with
    | malformed unparsed =>
      rw [parsed] at unparsed
      cases unparsed

/-- A template that applies its parameter, which goes well for `Box` and not for `Item[]`. -/
def appliedShapes : Document where
  operations := [{ Operation.new "get".toList "/shapes".toList [] with
    parameters := [{ name := "box".toList, type := "Apply<Box>".toList },
      { name := "items".toList, type := "Apply<Item[]>".toList }] }]
  definitions := [
    { name := "Apply".toList
      parameters := ["F".toList]
      properties := [.new "shape".toList "F<string>".toList true []] },
    { name := "Box".toList
      parameters := ["T".toList]
      properties := [.new "content".toList "T".toList true []] }]

theorem malformed_only_by_application_shapes :
    appliedShapes.checkTypes = .ok () ∧
      appliedShapes.expand 5 =
        .error (.error (.malformed "Item[]<string>".toList .badIdentifier)) ∧
      appliedShapes.AppliesParameter ∧
      itemPages.checkTypes = .ok () ∧ ¬ itemPages.AppliesParameter ∧
      (Catalog.ofDefinitions itemPages.definitions).Spawns "Page< Item >".toList
        "Pair<string, Item>[]".toList ∧
      TypeExpr.check "Pair<string, Item>[]".toList = .ok () := by
  have checked : appliedShapes.checkTypes = .ok () := by decide +kernel
  have failed : appliedShapes.expand 5 =
      .error (.error (.malformed "Item[]<string>".toList .badIdentifier)) :=
    map_eq_error_iff.1 (by decide +kernel : (appliedShapes.expand 5).map (fun _ => ()) = _)
  have checkedPages : itemPages.checkTypes = .ok () := by decide +kernel
  have unapplied : ¬ itemPages.AppliesParameter := by decide +kernel
  have spawned : ((Catalog.ofDefinitions itemPages.definitions).instance?
      "Page< Item >".toList).any (fun e =>
        decide ("Pair<string, Item>[]".toList ∈ e.properties.map Property.type)) = true := by
    decide +kernel
  obtain ⟨e, made, listed⟩ := (Option.any_eq_true ..).1 spawned
  have spawns : (Catalog.ofDefinitions itemPages.definitions).Spawns "Page< Item >".toList
      "Pair<string, Item>[]".toList := ⟨e, made, List.mem_map.1 (of_decide_eq_true listed)⟩
  exact ⟨checked, failed, (malformed_only_by_application checked).1 5 _ _ failed, checkedPages,
    unapplied, spawns, (malformed_only_by_application checkedPages).2 unapplied
      "Page< Item >".toList (by decide +kernel) _ (.single spawns)⟩

end Document

end ApiSchema
