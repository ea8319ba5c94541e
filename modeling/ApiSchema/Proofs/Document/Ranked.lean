import Mathlib.Data.Set.Finite.Lattice
import ApiSchema.Proofs.Document.Formed
import ApiSchema.Proofs.Expansion.Depth

/-!
# Templates that can be ranked

In a ranked document (`Document.Ranked`) the properties of a template apply templates of lower rank
only. Its expansion ends (`Document.expand_ends_of_ranked`), whatever types it is asked for, though
no rank goes down along a chain of instances: a property of type `T` leads back to what was passed
for `T`, which may be of any rank, and longer than the type it came from.

So what carries the proof is not a measure of types but a statement on heads. A type *ends* if no
chain of instances from it goes on forever, and a head is *tame* if a type with this head ends
wherever its arguments do. By induction on the rank every head is tame (`tame_of_ranked`): what
is filled into a property ends, by induction on the derivation of its type, since parameters stand
for arguments that end and each `<` stands behind a head that is tame already.
-/

namespace ApiSchema

open Relation

/-- In each property of a template, a name in front of a `<` is none of the template's parameters,
and if it names a template, then one of lower rank. -/
def Document.Ranked (d : Document) (rank : Definition → Nat) : Prop :=
  ∀ source ∈ d.templates, ∀ p ∈ source.properties, ∀ word, Applied word p.type →
    word ∉ source.parameters ∧
      ∀ other ∈ templateNamed d.definitions word, rank other < rank source

instance (d : Document) (rank : Definition → Nat) : Decidable (d.Ranked rank) :=
  decidable_of_iff (∀ source ∈ d.templates, ∀ p ∈ source.properties,
    ∀ word ∈ (Token.scan p.type).map Token.text, Applied word p.type →
      word ∉ source.parameters ∧
        ∀ other ∈ templateNamed d.definitions word, rank other < rank source) <| by
    refine ⟨fun ranked source template p property word applied => ?_,
      fun ranked source template p property word _ => ranked source template p property word⟩
    have scanned : Token.word word ∈ Token.scan p.type := applied.subset (List.mem_cons_self ..)
    exact ranked source template p property word (List.mem_map_of_mem scanned) applied

/-! ## Types that end -/

namespace Catalog

variable (c : Catalog)

/-- No chain of instances from `type` goes on forever. -/
def Ends (type : Text) : Prop :=
  Acc (fun other type => c.Spawns type other) type

/-- A type with this head ends if its arguments end. -/
def Tame (head : Text) : Prop :=
  ∀ type (trees : List TypeExpr), genericUse? type = some (head, trees.map TypeExpr.name) →
    (∀ a ∈ trees, Derives a.name a) → (∀ a ∈ trees, c.Ends a.name) → c.Ends type

variable {c} {type other head text : Text} {t : TypeExpr}

theorem ends_of_genericUse?_eq_none (plain : genericUse? type = none) : c.Ends type := by
  refine .intro type fun other spawns => ?_
  obtain ⟨e, made, -⟩ := spawns
  rw [instance?, plain] at made
  cases made

theorem Ends.congr (ends : c.Ends type) (same : genericUse? other = genericUse? type) :
    c.Ends other := by
  refine .intro other fun further spawns => ends.inv ?_
  obtain ⟨e, made, listed⟩ := spawns
  rw [instance?, same] at made
  exact ⟨e, made, listed⟩

theorem ends_of_isIdentifier (name : isIdentifier text = true) (notMeta : text ∉ metaWords) :
    c.Ends text := by
  refine ends_of_genericUse?_eq_none ?_
  rw [genericUse?_eq_of_parse (parse_of_derives (.name name notMeta)), TypeExpr.element_ofName]
  unfold TypeExpr.ofName
  split <;> rfl

theorem ends_of_isFormat {format : Text} {kind : Primitive} (name : isIdentifier head = true)
    (start : kind.keyword <+: head) (formed : isFormat format = true) :
    c.Ends (head ++ '#' :: format) := by
  refine ends_of_genericUse?_eq_none ?_
  rw [genericUse?_eq_of_parse (parse_of_derives (.format name start formed))]
  rfl

theorem Ends.array (ends : c.Ends text) (derives : Derives text t) :
    c.Ends (text ++ ['[', ']']) := by
  refine ends.congr ?_
  rw [genericUse?_eq_of_parse (parse_of_derives derives.array),
    genericUse?_eq_of_parse (parse_of_derives derives)]
  rfl

theorem Tame.ends {name : Text} {trees : List TypeExpr} (tame : c.Tame head)
    (derives : Derives text (.object name head trees)) (nonempty : trees ≠ [])
    (ends : ∀ a ∈ trees, c.Ends a.name) : c.Ends text := by
  obtain ⟨-, -, derived⟩ := derives.of_object nonempty
  exact tame text trees (genericUse?_of_parse (parse_of_derives derives) rfl nonempty) derived ends

/-- Where all heads are tame, all derived types end. -/
theorem ends_of_derives (tame : ∀ head, c.Tame head) (derives : Derives text t) :
    c.Ends text := by
  induction derives with
  | name name notMeta => exact ends_of_isIdentifier name notMeta
  | format name start formed => exact ends_of_isFormat name start formed
  | @generic head segments name free padded cores nonempty ih =>
    refine (tame head).ends (.generic name free padded cores nonempty) nonempty fun a member => ?_
    obtain ⟨segment, listed, found⟩ := List.mem_filterMap.1 member
    cases segment with
    | blank => cases found
    | argument before core after tree =>
      rw [← Option.some.inj found, (cores before core after tree listed).name_eq]
      exact ih before core after tree listed
  | array derives ih => exact ih.array derives

/-- Where types that end are put into a type whose heads are tame, the new type ends. -/
theorem ends_substituteWords {lookup : Text → Option TypeExpr}
    (proper : ∀ w a, lookup w = some a → isIdentifier w = true ∧ Derives a.name a)
    (ending : ∀ w a, lookup w = some a → c.Ends a.name) (derives : Derives text t)
    (unapplied : ∀ w a, lookup w = some a → ¬ Applied w text)
    (tame : ∀ head, Applied head text → c.Tame head) :
    ∃ result, Derives (substituteWords (fun w => (lookup w).map TypeExpr.name) text) result ∧
      c.Ends result.name := by
  induction derives with
  | @name word name notMeta =>
    rw [substituteWords_word _ (ne_nil_of_isIdentifier name) (isWordChar_of_isIdentifier name)]
    cases found : lookup word with
    | none =>
      refine ⟨.ofName word, .name name notMeta, ?_⟩
      rw [TypeExpr.name_ofName]
      exact ends_of_isIdentifier name notMeta
    | some a => exact ⟨a, (proper word a found).2, ending word a found⟩
  | @format head format kind name start formed =>
    rw [substituteWords_format _ (ne_nil_of_isIdentifier name) (isWordChar_of_isIdentifier name)
      (isWordChar_of_isFormat formed)]
    exact ⟨_, .format name start formed, ends_of_isFormat name start formed⟩
  | @generic head segments name free padded cores nonempty ih =>
    have applied := applied_head name (Text.join [','] (segments.map Segment.text))
    have headUnknown : lookup head = none :=
      Option.eq_none_iff_forall_ne_some.2 fun a found => unapplied head a found applied
    have inner : ∀ before core after tree, .argument before core after tree ∈ segments →
        ∃ result, Derives (substituteWords (fun w => (lookup w).map TypeExpr.name) core) result ∧
          c.Ends result.name := by
      intro before core after tree listed
      have upwards : ∀ {w}, Applied w core → Applied w _ := fun applied =>
        applied.of_argument name listed (padded _ listed)
      exact ih before core after tree listed
        (fun w a found applied => unapplied w a found (upwards applied))
        (fun w applied => tame w (upwards applied))
    obtain ⟨new, texts, related, derived⟩ :=
      exists_rewritten_segments (R := fun _ result => c.Ends result.name)
        (Segment.forall_holds_iff.2 ⟨padded, inner⟩)
    have kept : new.filterMap Segment.tree? ≠ [] := by
      intro empty
      rw [empty] at related
      exact nonempty (List.forall₂_nil_right_iff.1 related)
    have whole := Derives.generic_spaced name free derived kept
    rw [substituteWords_generic _ (ne_nil_of_isIdentifier name) (isWordChar_of_isIdentifier name),
      headUnknown, ← texts]
    exact ⟨_, whole, (tame head applied).ends whole kept (forall_mem_of_forall₂ related)⟩
  | array derives ih =>
    obtain ⟨result, derived, ends⟩ :=
      ih (fun w a found applied => unapplied w a found applied.of_item)
        (fun w applied => tame w applied.of_item)
    rw [substituteWords_array]
    rw [derived.name_eq] at ends
    exact ⟨_, .array derived, ends.array derived⟩

/-! ## The depth of types that end -/

/-- How many instances there may be on the way from a type. -/
def depths (c : Catalog) (type : Text) : Set Nat :=
  { n | ∃ names last, c.Leads type names last ∧ names.length = n }

theorem bddAbove_iUnion_depths {types : List Text} (each : ∀ type ∈ types, BddAbove (c.depths type)) :
    BddAbove (⋃ type ∈ types, c.depths type) :=
  ((List.finite_toSet types).bddAbove_biUnion).2 each

theorem Ends.bddAbove_depths (ends : c.Ends type) : BddAbove (c.depths type) := by
  induction ends with
  | intro type _ ih =>
    cases made : c.instance? type with
    | none =>
      refine ⟨0, ?_⟩
      rintro _ ⟨names, last, leads, rfl⟩
      cases leads with
      | here => exact le_rfl
      | call _ call _ =>
        obtain ⟨e, made', -⟩ := call
        rw [made] at made'
        cases made'
    | some e =>
      have each : ∀ other ∈ e.properties.map Property.type, BddAbove (c.depths other) := by
        intro other member
        exact ih other ⟨e, made, List.mem_map.1 member⟩
      obtain ⟨bound, above⟩ := bddAbove_iUnion_depths each
      refine ⟨bound + 1, ?_⟩
      rintro _ ⟨names, last, leads, rfl⟩
      cases leads with
      | here => exact Nat.zero_le _
      | @call _ other _ _ names _ call below =>
        obtain ⟨e', made', -, listed, -⟩ := call
        obtain rfl := Option.some.inj (made.symm.trans made')
        have inner : names.length ≤ bound := above
          (Set.mem_biUnion (List.mem_map.2 listed) ⟨names, last, below, rfl⟩)
        rw [List.length_append, List.length_singleton]
        exact Nat.succ_le_succ inner

end Catalog

/-- An expansion by types that end does not run into every bound. -/
theorem exists_expandAll_ne_tooDeep {definitions : List Definition} {types : List Text}
    (ends : ∀ type ∈ types, (Catalog.ofDefinitions definitions).Ends type) :
    ∃ depth, expandAll depth definitions types ≠ .error .tooDeep := by
  obtain ⟨bound, above⟩ :=
    Catalog.bddAbove_iUnion_depths fun type member => (ends type member).bddAbove_depths
  refine ⟨bound + 1, fun deep => ?_⟩
  rcases expandAll_eq_error deep with ⟨e, -, same⟩ | ⟨x, started, stopped⟩
  · cases same
  · obtain ⟨type, member, z, y, draws, stopped⟩ :=
      Expander.extractAll_eq_error (drawsOn_ofDefinitions started) stopped
    obtain ⟨names, last, stops⟩ := Expander.exists_stopsAt draws stopped
    rcases stops.cause with ⟨-, length⟩ | ⟨e, same, -⟩
    · have within : names.length ≤ bound :=
        above (Set.mem_biUnion member ⟨names, last, stops.leads, rfl⟩)
      omega
    · cases same

/-! ## Ranked documents -/

namespace Document

variable {d : Document} {rank : Definition → Nat}

/-- In a ranked document every head is tame. -/
theorem tame_of_ranked (checked : d.checkTypes = .ok ()) (ranked : d.Ranked rank) (n : Nat) :
    ∀ head, (∀ source ∈ templateNamed d.definitions head, rank source < n) →
      (Catalog.ofDefinitions d.definitions).Tame head := by
  induction n using Nat.strong_induction_on with
  | _ n ih =>
    intro head lower type trees use derived ends
    refine .intro type fun other spawns => ?_
    obtain ⟨e, made, p, member, rfl⟩ := spawns
    obtain ⟨source, others, last, names, use', derivedOthers, arity, rfl⟩ :=
      exists_trees_of_instance? made
    obtain ⟨rfl, listed⟩ := Prod.mk.inj (Option.some.inj (use.symm.trans use'))
    obtain rfl := eq_of_names derived derivedOthers listed
    obtain ⟨q, property, rfl⟩ := List.mem_map.1 member
    obtain ⟨given, isTemplate, -⟩ := mem_of_templateNamed last
    have template : source ∈ d.templates := List.mem_filter.2 ⟨given, isTemplate⟩
    obtain ⟨t, parsed⟩ :=
      check_eq_ok_iff.1 ((checkTypes_eq_ok_iff.1 checked).2 source template q property)
    have derives := parse_eq_ok_iff.1 parsed
    have proper : ∀ w a, (source.distinctParameters.zip trees).lookup w = some a →
        isIdentifier w = true ∧ Derives a.name a := by
      intro w a found
      obtain ⟨parameter, argument⟩ := mem_of_lookup_zip found
      exact ⟨names w (List.mem_eraseDups.1 parameter), derived a argument⟩
    have unapplied : ∀ w a, (source.distinctParameters.zip trees).lookup w = some a →
        ¬ Applied w (Text.trim q.type) := by
      intro w a found applied
      have own := List.mem_eraseDups.1 (mem_of_lookup_zip found).1
      exact (ranked source template q property w (applied_trim_iff.1 applied)).1 own
    have tame : ∀ inner, Applied inner (Text.trim q.type) →
        (Catalog.ofDefinitions d.definitions).Tame inner := by
      intro inner applied
      have further := (ranked source template q property inner (applied_trim_iff.1 applied)).2
      exact ih (rank source) (lower source last) inner further
    obtain ⟨result, filled, ending⟩ := Catalog.ends_substituteWords proper
      (fun w a found => ends a (mem_of_lookup_zip found).2) derives unapplied tame
    rw [← filledType_eq_substituteWords names derived arity derives] at filled
    rwa [filled.name_eq] at ending

theorem ends_of_ranked (checked : d.checkTypes = .ok ()) (ranked : d.Ranked rank) (type : Text) :
    (Catalog.ofDefinitions d.definitions).Ends type := by
  have tame : ∀ head, (Catalog.ofDefinitions d.definitions).Tame head := by
    intro head
    refine tame_of_ranked checked ranked
      ((templateNamed d.definitions head).elim 0 (rank · + 1)) head fun source found => ?_
    rw [Option.mem_def.1 found]
    exact Nat.lt_succ_self _
  cases parsed : TypeExpr.parse type with
  | error e =>
    refine Catalog.ends_of_genericUse?_eq_none ?_
    rw [genericUse?, parsed]
  | ok t =>
    have derives := parse_eq_ok_iff.1 parsed
    refine (Catalog.ends_of_derives tame derives).congr ?_
    rw [genericUse?_eq_of_parse parsed, genericUse?_eq_of_parse (parse_of_derives derives)]

/-- The expansion of a checked document whose templates can be ranked ends, and so does an
expansion of its definitions by any other types: there is one outcome for every bound that is large
enough, and that is not the bound. -/
theorem expand_ends_of_ranked (checked : d.checkTypes = .ok ()) (ranked : d.Ranked rank) :
    (∃ bound outcome, outcome ≠ .error .tooDeep ∧
        ∀ depth, bound ≤ depth → d.expand depth = outcome) ∧
      ∀ types, ∃ bound outcome, outcome ≠ .error .tooDeep ∧
        ∀ depth, bound ≤ depth → expandAll depth d.definitions types = outcome := by
  have all : ∀ types, ∃ bound outcome, outcome ≠ .error .tooDeep ∧
      ∀ depth, bound ≤ depth → expandAll depth d.definitions types = outcome := by
    intro types
    obtain ⟨bound, finished⟩ :=
      exists_expandAll_ne_tooDeep fun type (_ : type ∈ types) => ends_of_ranked checked ranked type
    exact ⟨bound, _, finished, fun depth enough => expandAll_of_le enough finished⟩
  refine ⟨?_, all⟩
  obtain ⟨bound, outcome, finished, expanded⟩ := all d.referencedTypes
  refine ⟨bound, outcome, finished, fun depth enough => ?_⟩
  rw [expand, checked]
  exact expanded depth enough

/-- Pages of pages, with properties that put the parameter into larger types. -/
def pagesOfPages : Document where
  operations := [{ Operation.new "get".toList "/items".toList [] with
    parameters := [{ name := "book".toList, type := "Page<Page<Page<Item>>>[]".toList }] }]
  definitions := [
    { name := "Item".toList
      properties := [.new "name".toList "string".toList true []] },
    { name := "Page".toList
      parameters := ["T".toList]
      properties := [.new "items".toList "T[]".toList true [],
        .new "ends".toList "Pair<Wrap<Wrap<T>>, T>".toList true []] },
    { name := "Pair".toList
      parameters := ["A".toList, "B".toList]
      properties := [.new "left".toList "A".toList true [],
        .new "right".toList "Wrap<B>".toList true []] },
    { name := "Wrap".toList
      parameters := ["T".toList]
      properties := [.new "value".toList "T".toList true []] }]

/-- Pages stand above pairs, and these above wraps. -/
def rankOfPages (source : Definition) : Nat :=
  if source.name = "Page".toList then 2 else if source.name = "Pair".toList then 1 else 0

theorem expand_ends_of_ranked_pagesOfPages :
    pagesOfPages.checkTypes = .ok () ∧ pagesOfPages.Ranked rankOfPages ∧
      ∃ bound out, (∀ depth, bound ≤ depth → pagesOfPages.expand depth = .ok out) ∧
        out.length = 13 ∧ "Page<Page<Page<Item>>>".toList ∈ out.map ConcreteDefinition.name := by
  have checked : pagesOfPages.checkTypes = .ok () := by decide +kernel
  have ranked : pagesOfPages.Ranked rankOfPages := by decide +kernel
  have runs : (pagesOfPages.expand 9).toOption.any (fun out => decide (out.length = 13 ∧
      "Page<Page<Page<Item>>>".toList ∈ out.map ConcreteDefinition.name)) = true := by
    decide +kernel
  obtain ⟨out, run, facts⟩ := (Option.any_eq_true ..).1 runs
  have expanded := (expand_eq_ok_iff.1 (toOption_eq_some_iff.1 run)).2
  obtain ⟨⟨bound, outcome, -, ends⟩, -⟩ := expand_ends_of_ranked checked ranked
  have same : outcome = .ok out := by
    have finished : expandAll 9 pagesOfPages.definitions pagesOfPages.referencedTypes ≠
        .error .tooDeep := by simp [expanded]
    rw [← ends (max bound 9) (le_max_left bound 9), expand, checked]
    exact (expandAll_of_le (le_max_right bound 9) finished).trans expanded
  rw [same] at ends
  exact ⟨checked, ranked, bound, out, ends, of_decide_eq_true facts⟩

end Document

end ApiSchema
