import ApiSchema.Proofs.Outcome
import ApiSchema.Proofs.TypeExpr.Grammar

/-!
# Parsing finds the derivations

`parseLevel_eq_ok_iff` ties the parser to the grammar on trimmed texts, one level at a time: a
piece between commas that is not blank is an argument between blanks, and the pieces of a derived
list are its segments. The check that builds no tree ends as the parser does
(`check_eq_map_parse`).
-/

namespace ApiSchema

/-! ## A parsed text is derived -/

/-- The pieces between commas are the segments of a derivation of the parsed arguments. -/
theorem exists_segments {pieces : List Text} {trees : List TypeExpr}
    (derived : List.Forall₂ Derives ((pieces.map Text.trim).filter (!·.isEmpty)) trees) :
    ∃ segments : List Segment, segments.map Segment.text = pieces ∧
      segments.filterMap Segment.tree? = trees ∧ ∀ s ∈ segments, s.Holds Derives := by
  induction pieces generalizing trees with
  | nil =>
    cases derived
    exact ⟨[], rfl, rfl, by simp⟩
  | cons piece pieces ih =>
    rw [List.map_cons] at derived
    by_cases empty : Text.trim piece = []
    · rw [empty, List.filter_cons_of_neg (by simp)] at derived
      obtain ⟨segments, rfl, rfl, holds⟩ := ih derived
      have blank : piece.IsBlank := Text.isBlank_of_trim_eq_nil empty
      exact ⟨.blank piece :: segments, rfl, rfl, List.forall_mem_cons.2 ⟨blank, holds⟩⟩
    · rw [List.filter_cons_of_pos (by simpa using empty)] at derived
      cases derived with
      | @cons _ tree _ trees first rest =>
        obtain ⟨segments, rfl, rfl, holds⟩ := ih rest
        obtain ⟨before, after, hb, ha, split⟩ := Text.exists_trim_padding piece
        refine ⟨.argument before (Text.trim piece) after tree :: segments, ?_, rfl,
          List.forall_mem_cons.2 ⟨⟨hb, ha, first⟩, holds⟩⟩
        rw [List.map_cons, Segment.text, ← split]

theorem ofName_keyword (kind : Primitive) :
    TypeExpr.ofName kind.keyword = .primitive kind.keyword kind kind.defaultFormat := by
  rw [TypeExpr.ofName, Primitive.ofKeyword?_eq_some_iff.2 rfl]

theorem ofName_of_not_reserved {word : Text} (free : word ∉ reservedWords) :
    TypeExpr.ofName word = .object word word [] := by
  unfold TypeExpr.ofName
  split
  · rename_i kind found
    exact (free (Primitive.mem_reservedWords_iff.2
      (Or.inl ⟨kind, Primitive.ofKeyword?_eq_some_iff.1 found⟩))).elim
  · rfl

theorem derives_of_parseLevel {text : Text} {t : TypeExpr}
    (parsed : TypeExpr.parseLevel text = .ok t) : Derives text t := by
  rw [TypeExpr.parseLevel_eq] at parsed
  cases read : Level.ofText text with
  | error reason => rw [read] at parsed; cases parsed
  | ok level =>
    rw [read] at parsed
    -- the parts of a level are shorter than its text: the recursion is on the length
    cases level with
    | array item =>
      have shorter := Level.length_of_array read
      obtain ⟨tree, found, rfl⟩ := map_eq_ok_iff.1 parsed
      cases Level.ofText_eq_ok_iff.1 read
      exact .array (derives_of_parseLevel found)
    | primitive kind format =>
      cases parsed
      cases Level.ofText_eq_ok_iff.1 read with
      | keyword =>
        rw [Option.getD_none, ← ofName_keyword]
        exact .name kind.isIdentifier_keyword kind.keyword_not_mem_metaWords
      | format name start formed => exact .format name start formed
    | object head arguments =>
      have shorter := Level.length_of_object read
      obtain ⟨trees, found, rfl⟩ := map_eq_ok_iff.1 parsed
      have derived : List.Forall₂ Derives arguments trees := by
        refine ((List.forall₂_and_left _ _).2 ⟨shorter, mapM_eq_ok_iff.1 found⟩).imp ?_
        intro a tree ⟨_, parsed⟩
        exact derives_of_parseLevel parsed
      cases Level.ofText_eq_ok_iff.1 read with
      | name name free =>
        cases derived
        rw [← ofName_of_not_reserved free]
        exact .name name fun member => free (Primitive.mem_reservedWords_iff.2 (Or.inr member))
      | @generic _ inside _ name free divided nonempty =>
        obtain ⟨pieces, cut, rfl⟩ := Option.map_eq_some_iff.1 divided
        obtain ⟨-, rfl⟩ := join_of_cutAtCommas cut
        obtain ⟨segments, rfl, rfl, holds⟩ := exists_segments derived
        obtain ⟨padded, cores⟩ := Segment.forall_holds_iff.1 holds
        refine .generic name free padded cores fun empty => nonempty ?_
        rw [empty] at derived
        exact List.forall₂_nil_right_iff.1 derived
termination_by text.length

/-! ## Checking is parsing without the tree -/

theorem forM_eq_map_mapM {arguments : List Text}
    (agree : ∀ a ∈ arguments,
      TypeExpr.checkLevel a = (TypeExpr.parseLevel a).map fun _ => ()) :
    arguments.forM TypeExpr.checkLevel = (arguments.mapM TypeExpr.parseLevel).map fun _ => () := by
  induction arguments with
  | nil => rfl
  | cons a arguments ih =>
    have first := agree a (List.mem_cons_self ..)
    have rest := ih fun b member => agree b (List.mem_cons_of_mem _ member)
    show (TypeExpr.checkLevel a >>= fun _ => arguments.forM TypeExpr.checkLevel) = _
    rw [List.mapM_cons, first, rest]
    cases TypeExpr.parseLevel a with
    | error e => rfl
    | ok t => cases arguments.mapM TypeExpr.parseLevel <;> rfl

theorem checkLevel_eq_map_parseLevel (text : Text) :
    TypeExpr.checkLevel text = (TypeExpr.parseLevel text).map fun _ => () := by
  rw [TypeExpr.checkLevel_eq, TypeExpr.parseLevel_eq]
  cases read : Level.ofText text with
  | error reason => rfl
  | ok level =>
    cases level with
    | primitive kind format => rfl
    | array item =>
      have shorter := Level.length_of_array read
      simp only [checkLevel_eq_map_parseLevel item]
      cases TypeExpr.parseLevel item <;> rfl
    | object head arguments =>
      have shorter := Level.length_of_object read
      have agree : ∀ a ∈ arguments,
          TypeExpr.checkLevel a = (TypeExpr.parseLevel a).map fun _ => () := by
        intro a member
        have := shorter a member
        exact checkLevel_eq_map_parseLevel a
      simp only [forM_eq_map_mapM agree]
      cases arguments.mapM TypeExpr.parseLevel <;> rfl
termination_by text.length

theorem check_eq_map_parse (text : Text) :
    TypeExpr.check text = (TypeExpr.parse text).map fun _ => () :=
  checkLevel_eq_map_parseLevel (Text.trim text)

theorem check_eq_ok_iff {text : Text} :
    TypeExpr.check text = .ok () ↔ ∃ t, TypeExpr.parse text = .ok t := by
  rw [check_eq_map_parse, map_eq_ok_iff]
  simp

/-! ## A derived text is parsed -/

theorem filter_trim_segments {segments : List Segment}
    (holds : ∀ s ∈ segments, s.Holds Derives) :
    ((segments.map Segment.text).map Text.trim).filter (!·.isEmpty) =
      segments.filterMap Segment.core? := by
  induction segments with
  | nil => rfl
  | cons segment segments ih =>
    obtain ⟨first, rest⟩ := List.forall_mem_cons.1 holds
    rw [List.map_cons, List.map_cons]
    cases segment with
    | blank text =>
      have trimmed : Text.trim (Segment.blank text).text = [] := Text.trim_of_isBlank first
      rw [trimmed, List.filter_cons_of_neg (by simp), ih rest]
      rfl
    | argument before core after tree =>
      obtain ⟨hb, ha, derived⟩ := first
      have trimmed : Text.trim (Segment.argument before core after tree).text = core :=
        Text.trim_padded hb ha derived.tight
      rw [trimmed, List.filter_cons_of_pos (by simpa using derived.ne_nil), ih rest]
      rfl

/-- The arguments of a derived list are found again. -/
theorem splitArguments_segments {segments : List Segment}
    (holds : ∀ s ∈ segments, s.Holds Derives) (nonempty : segments ≠ []) :
    splitArguments (Text.join [','] (segments.map Segment.text)) =
      some (segments.filterMap Segment.core?) := by
  have passes : ∀ p ∈ segments.map Segment.text, Passes 0 p := by
    intro p member
    obtain ⟨segment, listed, rfl⟩ := List.mem_map.1 member
    exact segment.passes ((holds segment listed).imp fun _ _ derived => derived.passes)
  rw [splitArguments, cutAtCommas_join (by simpa using nonempty) passes, Option.map_some,
    filter_trim_segments holds]

theorem forall₂_core_tree {R : Text → TypeExpr → Prop} {segments : List Segment}
    (holds : ∀ s ∈ segments, s.Holds R) :
    List.Forall₂ R (segments.filterMap Segment.core?) (segments.filterMap Segment.tree?) := by
  induction segments with
  | nil => exact .nil
  | cons segment segments ih =>
    obtain ⟨first, rest⟩ := List.forall_mem_cons.1 holds
    cases segment with
    | blank text => exact ih rest
    | argument before core after tree => exact .cons first.2.2 (ih rest)

theorem parseLevel_of_derives {text : Text} {t : TypeExpr} (derives : Derives text t) :
    TypeExpr.parseLevel text = .ok t := by
  induction derives with
  | @name word name notMeta =>
    rw [TypeExpr.parseLevel_eq]
    by_cases reserved : word ∈ reservedWords
    · obtain ⟨kind, rfl⟩ := (Primitive.mem_reservedWords_iff.1 reserved).resolve_right notMeta
      rw [Level.ofText_of_written (.keyword kind), ofName_keyword]
      rfl
    · rw [Level.ofText_of_written (.name name reserved), ofName_of_not_reserved reserved]
      rfl
  | format name start formed =>
    rw [TypeExpr.parseLevel_eq, Level.ofText_of_written (.format name start formed)]
    rfl
  | @generic head segments name free padded cores nonempty ih =>
    have listed : segments ≠ [] := by
      rintro rfl
      exact nonempty rfl
    have trees := forall₂_core_tree (Segment.forall_holds_iff.2 ⟨padded, ih⟩)
    have found : segments.filterMap Segment.core? ≠ [] := by
      intro empty
      rw [empty] at trees
      exact nonempty (List.forall₂_nil_left_iff.1 trees)
    rw [TypeExpr.parseLevel_eq, Level.ofText_of_written (.generic name free
      (splitArguments_segments (Segment.forall_holds_iff.2 ⟨padded, cores⟩) listed) found)]
    exact map_eq_ok_iff.2 ⟨_, mapM_eq_ok_iff.2 trees, rfl⟩
  | @array item tree derives ih =>
    have tight : Text.endsBlank item = false := by
      rw [Text.endsBlank, Option.any_eq_false]
      exact derives.tight.last
    rw [TypeExpr.parseLevel_eq, Level.ofText_of_written (.array tight)]
    exact map_eq_ok_iff.2 ⟨tree, ih, rfl⟩

/-- On trimmed texts the parser finds exactly the derivations. -/
theorem parseLevel_eq_ok_iff {text : Text} {t : TypeExpr} :
    TypeExpr.parseLevel text = .ok t ↔ Derives text t :=
  ⟨derives_of_parseLevel, parseLevel_of_derives⟩

theorem parse_eq_ok_iff {text : Text} {t : TypeExpr} :
    TypeExpr.parse text = .ok t ↔ Derives (Text.trim text) t :=
  parseLevel_eq_ok_iff

theorem parse_of_derives {text : Text} {t : TypeExpr} (derives : Derives text t) :
    TypeExpr.parse text = .ok t := by
  rw [parse_eq_ok_iff, derives.trim_eq]
  exact derives

/-- A parsed tree is derived from its name. -/
theorem derives_name_of_parse {text : Text} {t : TypeExpr} (parsed : TypeExpr.parse text = .ok t) :
    Derives t.name t := by
  have derived := parse_eq_ok_iff.1 parsed
  rwa [derived.name_eq]

theorem Derives.unique {text : Text} {t u : TypeExpr} (ht : Derives text t)
    (hu : Derives text u) : t = u := by
  have same := parseLevel_of_derives ht
  rw [parseLevel_of_derives hu] at same
  cases same
  rfl

/-- A text parses exactly when the grammar derives what is left of it after trimming, and then it
has one derivation, which is the tree that the parser returns. -/
theorem parse_finds_derivation (text : Text) :
    ((∃ t, TypeExpr.parse text = .ok t) ↔ ∃ t, Derives (Text.trim text) t) ∧
      (∀ t, TypeExpr.parse text = .ok t → Derives (Text.trim text) t) ∧
      ∀ t u, Derives (Text.trim text) t → Derives (Text.trim text) u → t = u :=
  ⟨exists_congr fun _ => parse_eq_ok_iff, fun _ => parse_eq_ok_iff.1, fun _ _ => Derives.unique⟩

end ApiSchema
