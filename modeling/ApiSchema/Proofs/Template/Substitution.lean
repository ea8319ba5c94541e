import ApiSchema.Proofs.Registration
import ApiSchema.Proofs.Template.Placeholders
import ApiSchema.Proofs.TypeExpr.Naming

/-!
# Instances and trees

Arguments are put into a type as text, and the text that comes out is read again.
`derives_substituteWords` follows the derivation of the type: where no replaced word stands in front
of a `<`, the new text is derived too, and its tree is the old one with trees in the places of the
replaced names. `parse_instantiate` says the same of the properties of an instance.
-/

namespace ApiSchema

/-! ## Substitution on trees -/

namespace TypeExpr

/-- The tree without the texts that its nodes were read from. -/
def stripNames : TypeExpr → TypeExpr
  | primitive _ kind format => primitive [] kind format
  | object _ head arguments => object [] head (arguments.map stripNames)
  | array _ item => array [] item.stripNames

/-- The tree with others in the places of the nodes whose names `lookup` knows. -/
def substitute (lookup : Text → Option TypeExpr) : TypeExpr → TypeExpr
  | primitive name kind format => (lookup name).getD (primitive name kind format)
  | object name head arguments =>
    (lookup name).getD (object name head (arguments.map (substitute lookup)))
  | array name item => (lookup name).getD (array name (item.substitute lookup))

theorem substitute_ofName (lookup : Text → Option TypeExpr) (word : Text) :
    (ofName word).substitute lookup = (lookup word).getD (ofName word) := by
  unfold ofName
  split
  · rw [substitute]
  · rw [substitute, List.map_nil]

theorem substitute_none : ∀ t : TypeExpr, t.substitute (fun _ => none) = t
  | primitive .. => by rw [substitute, Option.getD_none]
  | object name head arguments => by
    have kept : ∀ a ∈ arguments, a.substitute (fun _ => none) = a :=
      fun a _ => substitute_none a
    rw [substitute, Option.getD_none, List.map_congr_left kept, List.map_id']
  | array name item => by rw [substitute, Option.getD_none, substitute_none item]

theorem element_stripNames : ∀ t : TypeExpr, t.stripNames.element = t.element.stripNames
  | primitive .. => by simp only [stripNames, element]
  | object .. => by simp only [stripNames, element]
  | array _ item => by simpa only [stripNames, element] using element_stripNames item

theorem exists_object_of_stripNames {u : TypeExpr} {name head : Text} {arguments : List TypeExpr}
    (same : u.stripNames = (object name head arguments).stripNames) :
    ∃ name' arguments', u = object name' head arguments' ∧
      arguments'.map stripNames = arguments.map stripNames := by
  cases u with
  | primitive | array => simp [stripNames] at same
  | object name' head' arguments' =>
    simp only [stripNames, object.injEq, true_and] at same
    obtain ⟨rfl, arguments⟩ := same
    exact ⟨name', arguments', rfl, arguments⟩

end TypeExpr

/-- The word stands directly in front of a `<`. -/
def Applied (word text : Text) : Prop :=
  [Token.word word, Token.mark '<'] <:+: Token.scan text

theorem applied_trim_iff {word text : Text} :
    Applied word (Text.trim text) ↔ Applied word text := by
  obtain ⟨before, after, hb, ha, split⟩ := Text.exists_trim_padding text
  nth_rewrite 2 [split]
  rw [Applied, Applied, Token.scan_padded hb ha]

section

variable {head word : Text} {segments : List Segment}

theorem applied_head (name : isIdentifier head = true) (inside : Text) :
    Applied head (head ++ '<' :: inside ++ ['>']) := by
  rw [Applied, Token.scan_generic (ne_nil_of_isIdentifier name) (isWordChar_of_isIdentifier name)]
  exact (List.prefix_append _ _).isInfix

theorem Applied.of_item {item : Text} (applied : Applied word item) :
    Applied word (item ++ ['[', ']']) := by
  rw [Applied, Token.scan_array]
  exact List.IsInfix.trans applied (List.prefix_append _ _).isInfix

theorem Applied.of_argument (name : isIdentifier head = true) {before core after : Text}
    {tree : TypeExpr} (listed : .argument before core after tree ∈ segments)
    (blank : (Segment.argument before core after tree).Padded) (applied : Applied word core) :
    Applied word (head ++ '<' :: Text.join [','] (segments.map Segment.text) ++ ['>']) := by
  have part := Token.scan_part_of_join (List.mem_map_of_mem (f := Segment.text) listed)
  rw [Segment.text, Token.scan_padded blank.1 blank.2] at part
  rw [Applied, Token.scan_generic (ne_nil_of_isIdentifier name) (isWordChar_of_isIdentifier name)]
  refine List.IsInfix.trans applied (part.trans ?_)
  exact (List.prefix_append _ _).isInfix.trans (List.suffix_append _ _).isInfix

end

/-! ## The characters of a derived text -/

/-- A character that is foreign to names, formats, marks and blanks is foreign to types. -/
theorem Derives.not_mem {text : Text} {t : TypeExpr} (derives : Derives text t) {c : Char}
    (notName : isIdentifierChar c = false) (notHyphen : c ≠ '-') (notMark : isMark c = false)
    (notBlank : isBlank c = false) : c ∉ text := by
  have plain : ∀ d, isMark d = true → c ≠ d := by
    rintro d mark rfl
    rw [mark] at notMark
    cases notMark
  have blanks : ∀ {text : Text}, text.IsBlank → c ∉ text := by
    intro text blank member
    rw [blank c member] at notBlank
    cases notBlank
  induction derives with
  | name name => exact not_mem_of_isIdentifier name notName
  | @format head format kind name _ formed =>
    rw [List.mem_append, List.mem_cons, not_or, not_or]
    refine ⟨not_mem_of_isIdentifier name notName, plain '#' (by decide), fun member => ?_⟩
    rcases isIdentifierChar_of_mem_format formed c member with hc | hyphen
    · rw [hc] at notName
      cases notName
    · exact notHyphen hyphen
  | @generic head segments name _ padded _ _ ih =>
    rw [List.mem_append, List.mem_append, List.mem_cons, List.mem_singleton, not_or, not_or, not_or]
    refine ⟨⟨not_mem_of_isIdentifier name notName, plain '<' (by decide), fun member => ?_⟩,
      plain '>' (by decide)⟩
    rcases Text.mem_join member with comma | ⟨part, listed, inside⟩
    · exact plain ',' (by decide) (List.mem_singleton.1 comma)
    · obtain ⟨segment, known, rfl⟩ := List.mem_map.1 listed
      have own := Segment.forall_holds_iff.2 ⟨padded, ih⟩ segment known
      cases segment with
      | blank text => exact blanks own inside
      | argument before core after tree =>
        rcases List.mem_append.1 inside with inside | behind
        · rcases List.mem_append.1 inside with front | inside
          · exact blanks own.1 front
          · exact own.2.2 inside
        · exact blanks own.2.1 behind
  | array _ ih =>
    rw [List.mem_append, not_or]
    refine ⟨ih, fun member => ?_⟩
    rcases List.mem_cons.1 member with same | member
    · exact plain '[' (by decide) same
    · exact plain ']' (by decide) (List.mem_singleton.1 member)

/-! ## Rewriting a derived text -/

section

variable {lookup : Text → Option TypeExpr}

/-- What is known is a name, so a text with any other character is not known. -/
theorem lookup_eq_none_of_mem
    (proper : ∀ w a, lookup w = some a → isIdentifier w = true ∧ Derives a.name a) {text : Text}
    {c : Char} (member : c ∈ text) (other : isIdentifierChar c = false) : lookup text = none := by
  refine Option.eq_none_iff_forall_ne_some.2 fun a found => ?_
  exact not_mem_of_isIdentifier (proper text a found).1 other member

/-- Array layers can be taken off before or after. -/
theorem Derives.element_substitute
    (proper : ∀ w a, lookup w = some a → isIdentifier w = true ∧ Derives a.name a) {text : Text}
    {t : TypeExpr} (derives : Derives text t) :
    (t.element.substitute lookup).element = (t.substitute lookup).element := by
  induction derives with
  | name => rw [TypeExpr.element_ofName]
  | format => rfl
  | generic => rfl
  | @array item tree _ ih =>
    have unknown : lookup (item ++ ['[', ']']) = none :=
      lookup_eq_none_of_mem proper (by simp : '[' ∈ _) (by decide)
    rw [TypeExpr.element, ih, TypeExpr.substitute, unknown]
    rfl

/-- The segments of a rewritten list, given what becomes of their arguments. -/
theorem exists_rewritten_segments {σ : Text → Option Text} {R : TypeExpr → TypeExpr → Prop}
    {segments : List Segment}
    (holds : ∀ s ∈ segments, s.Holds fun core tree =>
      ∃ result, Derives (substituteWords σ core) result ∧ R tree result) :
    ∃ new : List Segment,
      new.map Segment.text = (segments.map Segment.text).map (substituteWords σ) ∧
      List.Forall₂ R (segments.filterMap Segment.tree?) (new.filterMap Segment.tree?) ∧
      ∀ s ∈ new, s.Holds Derives := by
  induction segments with
  | nil => exact ⟨[], rfl, .nil, by simp⟩
  | cons segment segments ih =>
    obtain ⟨first, rest⟩ := List.forall_mem_cons.1 holds
    obtain ⟨new, texts, trees, derived⟩ := ih rest
    cases segment with
    | blank text =>
      have erased : substituteWords σ text = [] := substituteWords_isBlank σ first
      refine ⟨.blank [] :: new, ?_, trees, List.forall_mem_cons.2 ⟨Text.isBlank_nil, derived⟩⟩
      rw [List.map_cons, List.map_cons, List.map_cons, texts, Segment.text, Segment.text, erased]
    | argument before core after tree =>
      obtain ⟨hb, ha, result, rewritten, related⟩ := first
      refine ⟨.argument [] (substituteWords σ core) [] result :: new, ?_, .cons related trees,
        List.forall_mem_cons.2 ⟨⟨Text.isBlank_nil, Text.isBlank_nil, rewritten⟩, derived⟩⟩
      rw [List.map_cons, List.map_cons, List.map_cons, texts, Segment.text, Segment.text,
        substituteWords_padded σ hb ha, List.nil_append, List.append_nil]

/-- Names of derived trees for words of a derived text make a text that is derived, with the trees
in the places of the words. -/
theorem derives_substituteWords
    (proper : ∀ w a, lookup w = some a → isIdentifier w = true ∧ Derives a.name a)
    {text : Text} {t : TypeExpr} (derives : Derives text t)
    (unapplied : ∀ w a, lookup w = some a → ¬ Applied w text) :
    ∃ result, Derives (substituteWords (fun w => (lookup w).map TypeExpr.name) text) result ∧
      result.stripNames = (t.substitute lookup).stripNames := by
  induction derives with
  | @name word name notMeta =>
    rw [substituteWords_word _ (ne_nil_of_isIdentifier name) (isWordChar_of_isIdentifier name),
      TypeExpr.substitute_ofName]
    cases found : lookup word with
    | none => exact ⟨.ofName word, .name name notMeta, rfl⟩
    | some a => exact ⟨a, (proper word a found).2, rfl⟩
  | @format head format kind name start formed =>
    have unknown : lookup (head ++ '#' :: format) = none :=
      lookup_eq_none_of_mem proper (by simp : '#' ∈ _) (by decide)
    rw [substituteWords_format _ (ne_nil_of_isIdentifier name) (isWordChar_of_isIdentifier name)
      (isWordChar_of_isFormat formed), TypeExpr.substitute, unknown]
    exact ⟨_, .format name start formed, rfl⟩
  | @generic head segments name free padded cores nonempty ih =>
    -- the head stands in front of a bracket, so it is none of the replaced words
    have headUnknown : lookup head = none :=
      Option.eq_none_iff_forall_ne_some.2 fun a found =>
        unapplied head a found (applied_head name _)
    have inner : ∀ before core after tree, .argument before core after tree ∈ segments →
        ∃ result, Derives (substituteWords (fun w => (lookup w).map TypeExpr.name) core) result ∧
          result.stripNames = (tree.substitute lookup).stripNames := by
      intro before core after tree listed
      refine ih before core after tree listed fun w a found applied => unapplied w a found ?_
      exact applied.of_argument name listed (padded _ listed)
    obtain ⟨new, texts, related, derived⟩ :=
      exists_rewritten_segments (Segment.forall_holds_iff.2 ⟨padded, inner⟩)
    have trees : (new.filterMap Segment.tree?).map TypeExpr.stripNames =
        (segments.filterMap Segment.tree?).map (fun t => (t.substitute lookup).stripNames) := by
      rw [← List.forall₂_eq_eq_eq, List.forall₂_map_left_iff, List.forall₂_map_right_iff]
      exact related.flip
    have kept : new.filterMap Segment.tree? ≠ [] := by
      intro empty
      rw [empty] at related
      exact nonempty (List.forall₂_nil_right_iff.1 related)
    have unknown : lookup (head ++ '<' :: Text.join [','] (segments.map Segment.text) ++ ['>']) =
        none := lookup_eq_none_of_mem proper (by simp : '<' ∈ _) (by decide)
    rw [substituteWords_generic _ (ne_nil_of_isIdentifier name) (isWordChar_of_isIdentifier name),
      headUnknown, ← texts, TypeExpr.substitute, unknown]
    refine ⟨_, .generic_spaced name free derived kept, ?_⟩
    simp [TypeExpr.stripNames, trees]
  | @array item tree derives ih =>
    obtain ⟨result, derived, same⟩ :=
      ih fun w a found applied => unapplied w a found applied.of_item
    have unknown : lookup (item ++ ['[', ']']) = none :=
      lookup_eq_none_of_mem proper (by simp : '[' ∈ _) (by decide)
    rw [substituteWords_array, TypeExpr.substitute, unknown]
    refine ⟨_, .array derived, ?_⟩
    simp [TypeExpr.stripNames, same]

end

/-! ## Instances -/

theorem lookup_zip_map {α β : Type} (f : α → β) (keys : List Text) (values : List α) (w : Text) :
    (keys.zip (values.map f)).lookup w = ((keys.zip values).lookup w).map f := by
  induction keys generalizing values with
  | nil => rfl
  | cons key keys ih =>
    cases values with
    | nil => rfl
    | cons value values =>
      rw [List.map_cons, List.zip_cons_cons, List.zip_cons_cons, List.lookup_cons, List.lookup_cons,
        ih]
      split <;> rfl

theorem mem_of_lookup_zip {α : Type} {keys : List Text} {values : List α} {w : Text} {value : α}
    (found : (keys.zip values).lookup w = some value) : w ∈ keys ∧ value ∈ values :=
  List.of_mem_zip (mem_of_lookup found)

/-- No type has a placeholder of its own. -/
theorem opening_not_mem_of_derives {text : Text} {t : TypeExpr} (derives : Derives text t) :
    '«' ∉ text :=
  derives.not_mem (by decide) (by decide) (by decide) (by decide)

theorem opening_not_mem_of_trim {text : Text} {t : TypeExpr}
    (derives : Derives (Text.trim text) t) :
    '«' ∉ text := by
  have foreign : ∀ {text : Text}, text.IsBlank → '«' ∉ text := by
    intro text blank member
    exact absurd (blank _ member) (by decide)
  obtain ⟨before, after, hb, ha, split⟩ := Text.exists_trim_padding text
  rw [split, List.mem_append, List.mem_append, not_or, not_or]
  exact ⟨⟨foreign hb, opening_not_mem_of_derives derives⟩, foreign ha⟩

section

variable {d : Definition} {arguments : List TypeExpr} {text : Text} {t : TypeExpr}

/-- Marking and filling in put the names of the arguments in the places of the parameters. -/
theorem filledType_eq_substituteWords
    (names : ∀ parameter ∈ d.parameters, isIdentifier parameter = true)
    (derived : ∀ a ∈ arguments, Derives a.name a)
    (arity : arguments.length = d.distinctParameters.length)
    (derives : Derives (Text.trim text) t) :
    d.filledType (arguments.map TypeExpr.name) text =
      substituteWords (fun w => ((d.distinctParameters.zip arguments).lookup w).map TypeExpr.name)
        (Text.trim text) := by
  have names' : ∀ parameter ∈ d.distinctParameters, isIdentifier parameter = true :=
    fun parameter member => names parameter (List.mem_eraseDups.1 member)
  have plain : ∀ name ∈ arguments.map TypeExpr.name, '«' ∉ name := by
    intro name member
    obtain ⟨a, listed, rfl⟩ := List.mem_map.1 member
    exact opening_not_mem_of_derives (derived a listed)
  have images : (fun w => (d.distinctParameters.zip (arguments.map TypeExpr.name)).lookup w) =
      fun w => ((d.distinctParameters.zip arguments).lookup w).map TypeExpr.name :=
    funext fun w => lookup_zip_map TypeExpr.name d.distinctParameters arguments w
  obtain ⟨before, after, hb, ha, split⟩ := Text.exists_trim_padding text
  rw [Definition.filledType, Template.fill_markParameters names' plain (by simpa using arity)
    (opening_not_mem_of_trim derives), images]
  nth_rewrite 1 [split]
  exact substituteWords_padded _ hb ha _

/-- No placeholder is left where all are filled in. -/
theorem opening_not_mem_filledType
    (names : ∀ parameter ∈ d.parameters, isIdentifier parameter = true)
    (derived : ∀ a ∈ arguments, Derives a.name a)
    (arity : arguments.length = d.distinctParameters.length)
    (derives : Derives (Text.trim text) t) :
    '«' ∉ d.filledType (arguments.map TypeExpr.name) text := by
  rw [filledType_eq_substituteWords names derived arity derives]
  intro member
  rcases Token.mem_render_substitute member with ⟨token, listed, inside⟩ | ⟨w, v, found, inside⟩
  · rcases Token.mem_text_of_mem_scan listed inside with own | blank
    · exact opening_not_mem_of_derives derives own
    · revert blank
      decide
  · obtain ⟨a, argument, rfl⟩ := Option.map_eq_some_iff.1 found
    exact opening_not_mem_of_derives (derived a (mem_of_lookup_zip argument).2) inside

/-- What is filled in is derived, with trees in the places of the parameters. -/
theorem derives_filledType
    (names : ∀ parameter ∈ d.parameters, isIdentifier parameter = true)
    (derived : ∀ a ∈ arguments, Derives a.name a)
    (arity : arguments.length = d.distinctParameters.length)
    (derives : Derives (Text.trim text) t)
    (unapplied : ∀ parameter ∈ d.parameters, ¬ Applied parameter text) :
    ∃ result, Derives (d.filledType (arguments.map TypeExpr.name) text) result ∧
      result.stripNames = (t.substitute fun w =>
        (d.distinctParameters.zip arguments).lookup w).stripNames := by
  rw [filledType_eq_substituteWords names derived arity derives]
  refine derives_substituteWords (fun w a found => ?_) derives fun w a found applied => ?_
  · obtain ⟨parameter, argument⟩ := mem_of_lookup_zip found
    exact ⟨names w (List.mem_eraseDups.1 parameter), derived a argument⟩
  · exact unapplied w (List.mem_eraseDups.1 (mem_of_lookup_zip found).1)
      (applied_trim_iff.1 applied)

end

/-- A checked property of an instance parses, and to the tree of the template's property with the
trees of the arguments in the places of the parameters. -/
theorem parse_instantiate {d : Definition} {template : Template} {arguments : List TypeExpr}
    {p : Property} {i : Nat}
    (prepared : Template.prepare d = .ok template)
    (listed : d.properties[i]? = some p)
    (checked : TypeExpr.check p.type = .ok ())
    (unapplied : ∀ parameter ∈ d.parameters, ¬ Applied parameter p.type)
    (parsed : ∀ a ∈ arguments, ∃ text, TypeExpr.parse text = .ok a)
    (arity : arguments.length = template.placeholders.length) :
    ∃ q tree result,
      (template.instantiate (arguments.map TypeExpr.name)).properties[i]? = some q ∧
      TypeExpr.parse p.type = .ok tree ∧ TypeExpr.parse q.type = .ok result ∧
      result.stripNames = (tree.substitute fun w =>
        (d.distinctParameters.zip arguments).lookup w).stripNames := by
  obtain ⟨names, rfl⟩ := Template.prepare_eq_ok prepared
  obtain ⟨tree, read, -⟩ := map_eq_ok_iff.1 ((check_eq_map_parse p.type).symm.trans checked)
  have derived : ∀ a ∈ arguments, Derives a.name a := by
    intro a member
    obtain ⟨text, readArgument⟩ := parsed a member
    exact derives_name_of_parse readArgument
  obtain ⟨result, filled, same⟩ := derives_filledType names derived (by simpa using arity)
    (parse_eq_ok_iff.1 read) unapplied
  refine ⟨{ p with type := d.filledType (arguments.map TypeExpr.name) p.type }, tree, result, ?_,
    read, parse_of_derives filled, same⟩
  simp [Template.instantiate, listed, Definition.filledType]

/-- Rows of a table, with a format that spells a parameter. -/
def tableOfRows : Definition :=
  { name := "Table".toList
    parameters := ["K".toList, "V".toList]
    properties := [.new "rows".toList " Row< K ,V[], string#V, Kind >[]".toList true []] }

theorem parse_instantiate_tableOfRows :
    ∃ template a b q tree result,
      Template.prepare tableOfRows = .ok template ∧
      TypeExpr.parse " Item[] ".toList = .ok a ∧ TypeExpr.parse "Pair<A ,B>".toList = .ok b ∧
      (template.instantiate [a.name, b.name]).properties[0]? = some q ∧
      TypeExpr.parse " Row< K ,V[], string#V, Kind >[]".toList = .ok tree ∧
      TypeExpr.parse q.type = .ok result ∧
      result.stripNames = (tree.substitute fun w =>
        (["K".toList, "V".toList].zip [a, b]).lookup w).stripNames := by
  obtain ⟨a, ha⟩ : ∃ a, TypeExpr.parse " Item[] ".toList = .ok a :=
    exists_ok_of_isSome (by decide +kernel)
  obtain ⟨b, hb⟩ : ∃ b, TypeExpr.parse "Pair<A ,B>".toList = .ok b :=
    exists_ok_of_isSome (by decide +kernel)
  obtain ⟨template, prepared⟩ : ∃ template, Template.prepare tableOfRows = .ok template :=
    exists_ok_of_isSome (by decide +kernel)
  have parsed : ∀ x ∈ [a, b], ∃ text, TypeExpr.parse text = .ok x := by
    intro x member
    rcases List.mem_cons.1 member with rfl | member
    · exact ⟨_, ha⟩
    · exact ⟨_, List.mem_singleton.1 member ▸ hb⟩
  have arity : [a, b].length = template.placeholders.length := by
    rw [(Template.prepare_eq_ok prepared).2]
    rfl
  have unapplied : ∀ parameter ∈ tableOfRows.parameters,
      ¬ Applied parameter " Row< K ,V[], string#V, Kind >[]".toList := by
    unfold Applied
    decide +kernel
  have checked : TypeExpr.check " Row< K ,V[], string#V, Kind >[]".toList = .ok () :=
    toOption_eq_some_iff.1 (by decide +kernel)
  obtain ⟨q, tree, result, instantiated, read, readBack, same⟩ :=
    parse_instantiate prepared (i := 0) rfl checked unapplied parsed arity
  exact ⟨template, a, b, q, tree, result, prepared, ha, hb, instantiated, read, readBack, same⟩

end ApiSchema
