import ApiSchema.Proofs.Template.Boundary

/-!
# Two ways of marking parameters

Prepared types have placeholders for the words that are parameters, except beside a `#`. A search
for parameters between boundaries finds the same words where they stand as types do:
`Token.Placed` lists the marks that the words of a type stand between, and a word beside a `#` is
never between boundaries. One kind of word makes a difference. A name that is given arguments ends
in front of a `<`, which closes no name, so the search passes it over
(`Template.search_passes_over_heads`). It finds all words if a `<` closes names too, and finds them
without that exactly where no parameter is given arguments
(`Template.prepare_marks_between_boundaries`).
-/

namespace ApiSchema

namespace Token

/-! ## Where the words of a type stand -/

/-- The pieces of a type. A name stands behind the start, a comma or a `<`, and in front of anything
but a `]`. A format, which may be empty, stands behind a name and a `#`, and no `<` follows it. The
flag says whether a name may start in front of the pieces. -/
inductive Placed : Bool → List Token → Prop
  | nil (opened : Bool) : Placed opened []
  | mark {opened : Bool} {c : Char} {rest : List Token} : isMark c = true → c ≠ '#' →
    Placed (opensName c) rest → Placed opened (mark c :: rest)
  | name {w : Text} {rest : List Token} : IsWord w → startsClosed closesNameOrHead rest = true →
    Placed false rest → Placed true (word w :: rest)
  | noFormat {w : Text} {rest : List Token} : IsWord w → startsClosed closesName rest = true →
    Placed false rest → Placed true (word w :: .mark '#' :: rest)
  | format {w format : Text} {rest : List Token} : IsWord w → IsWord format →
    startsClosed closesName rest = true → Placed false rest →
    Placed true (word w :: .mark '#' :: word format :: rest)

variable {opened : Bool} {tokens front back rest : List Token} {c : Char}

theorem startsWithWord_of_startsClosed {closes : Char → Bool}
    (closed : startsClosed closes rest = true) : startsWithWord rest = false := by
  cases rest with
  | nil => rfl
  | cons token rest =>
    cases token with
    | word w => cases closed
    | mark c => rfl

theorem startsClosed_append_mark {closes : Char → Bool} (closed : startsClosed closes front = true)
    (closing : closes c = true) : startsClosed closes (front ++ mark c :: back) = true := by
  cases front with
  | nil => exact closing
  | cons token front =>
    cases token with
    | word w => cases closed
    | mark d => exact closed

theorem Placed.separated (placed : Placed opened tokens) : Separated tokens := by
  induction placed with
  | nil => exact .nil
  | mark isMark _ _ ih => exact .mark isMark ih
  | name isWord closed _ ih => exact .word isWord (startsWithWord_of_startsClosed closed) ih
  | noFormat isWord _ _ ih => exact .word isWord rfl (.mark (by decide) ih)
  | format isWord isFormat closed _ ih =>
    exact .word isWord rfl
      (.mark (by decide) (.word isFormat (startsWithWord_of_startsClosed closed) ih))

/-- Pieces may go on behind a mark that closes names. -/
theorem Placed.append_mark (placed : Placed opened front) (isMark : isMark c = true)
    (closing : closesName c = true) (placedBack : Placed (opensName c) back) :
    Placed opened (front ++ Token.mark c :: back) := by
  have closingHead : closesNameOrHead c = true := by rw [closesNameOrHead, closing, Bool.true_or]
  have notHash : c ≠ '#' := by
    rintro rfl
    cases closing
  induction placed with
  | nil => exact .mark isMark notHash placedBack
  | mark isMark' notHash' _ ih => exact .mark isMark' notHash' ih
  | name isWord closed _ ih =>
    exact .name isWord (startsClosed_append_mark closed closingHead) ih
  | noFormat isWord closed _ ih =>
    exact .noFormat isWord (startsClosed_append_mark closed closing) ih
  | format isWord isFormat closed _ ih =>
    exact .format isWord isFormat (startsClosed_append_mark closed closing) ih

theorem placed_join {parts : List Text} (each : ∀ part ∈ parts, Placed true (scan part)) :
    Placed true (scan (Text.join [','] parts)) := by
  induction parts with
  | nil =>
    rw [Text.join_nil, scan_nil]
    exact .nil true
  | cons part parts ih =>
    obtain ⟨first, later⟩ := List.forall_mem_cons.1 each
    by_cases last : parts = []
    · rw [last, Text.join_singleton]
      exact first
    · rw [Text.join_cons_of_ne_nil _ _ last, List.append_assoc, List.singleton_append,
        scan_append_mark part (by decide)]
      exact first.append_mark (by decide) (by decide) (ih later)

end Token

theorem Derives.placed {text : Text} {t : TypeExpr} (derives : Derives text t) :
    Token.Placed true (Token.scan text) := by
  induction derives with
  | name name =>
    have isWord := isWord_of_isIdentifier name
    rw [Token.scan_word isWord.nonempty isWord.chars]
    exact .name isWord rfl (.nil false)
  | @format head format kind name _ formed =>
    have isWord := isWord_of_isIdentifier name
    rw [Token.scan_append_mark head (by decide), Token.scan_word isWord.nonempty isWord.chars]
    by_cases empty : format = []
    · rw [empty, Token.scan_nil]
      exact .noFormat isWord rfl (.nil false)
    · have isFormat : IsWord format := ⟨empty, isWordChar_of_isFormat formed⟩
      rw [Token.scan_word isFormat.nonempty isFormat.chars]
      exact .format isWord isFormat rfl (.nil false)
  | @generic head segments name _ padded _ _ ih =>
    have isWord := isWord_of_isIdentifier name
    have inside : Token.Placed true
        (Token.scan (Text.join [','] (segments.map Segment.text))) := by
      refine Token.placed_join fun part member => ?_
      obtain ⟨segment, listed, rfl⟩ := List.mem_map.1 member
      have own := Segment.forall_holds_iff.2 ⟨padded, ih⟩ segment listed
      cases segment with
      | blank text =>
        rw [Segment.text, Token.scan_isBlank own]
        exact .nil true
      | argument before core after tree =>
        rw [Segment.text, Token.scan_padded own.1 own.2.1]
        exact own.2.2
    rw [Token.scan_generic isWord.nonempty isWord.chars]
    have closed : Token.Placed true
        (Token.scan (Text.join [','] (segments.map Segment.text)) ++ [Token.mark '>']) :=
      inside.append_mark (by decide) (by decide) (.nil _)
    exact .name isWord rfl (.mark (by decide) (by decide) closed)
  | array _ ih =>
    rw [Token.scan_array]
    exact ih.append_mark (by decide) (by decide) (.mark (by decide) (by decide) (.nil _))

namespace Token

variable {opened : Bool} {tokens rest : List Token}

/-! ## Both ways on pieces -/

theorem startsWithHash_of_startsClosed (closed : startsClosed closesNameOrHead rest = true) :
    startsWithHash rest = false := by
  cases rest with
  | nil => rfl
  | cons token rest =>
    cases token with
    | word w => cases closed
    | mark c =>
      rw [startsWithHash_mark, beq_eq_false_iff_ne]
      rintro rfl
      cases closed

/-- Where no word starts, it makes no difference what stands in front. -/
theorem substitute_of_startsClosed {closes : Char → Bool} (lookup : Text → Option Text)
    (closed : startsClosed closes rest = true) (flag : Bool) :
    substitute lookup flag rest = substitute lookup false rest := by
  cases rest with
  | nil => rfl
  | cons token rest =>
    cases token with
    | word w => cases closed
    | mark c => rfl

/-- If a `<` closes names too, the words between boundaries are those that are not beside a `#`. -/
theorem Placed.mapNames_eq_substitute (placed : Placed opened tokens)
    (lookup : Text → Option Text) :
    mapNames closesNameOrHead (fun w => (lookup w).getD w) opened tokens =
      substitute lookup false tokens := by
  induction placed with
  | nil => rfl
  | @mark _ c _ _ notHash _ ih =>
    rw [mapNames, substitute_mark, ih, beq_false_of_ne notHash]
  | name _ closed _ ih =>
    rw [mapNames, substitute, closed, startsWithHash_of_startsClosed closed, ih]
    rfl
  | noFormat _ closed _ ih =>
    have hash := substitute_of_startsClosed lookup closed true
    rw [← ih] at hash
    rw [mapNames, mapNames, substitute, substitute_mark]
    exact congrArg _ (congrArg _ hash.symm)
  | format _ _ _ _ ih =>
    rw [mapNames, mapNames, mapNames, substitute, substitute_mark, substitute, ih]
    rfl

/-- The word stands in front of a `<` at the start, or later on. -/
theorem applied_cons_iff {w v : Text} :
    [word w, mark '<'] <:+: word v :: rest ↔
      (w = v ∧ [mark '<'] <+: rest) ∨ [word w, mark '<'] <:+: rest := by
  rw [List.infix_cons_iff, List.cons_prefix_cons, word.injEq]

theorem applied_cons_mark_iff {w : Text} {c : Char} :
    [word w, mark '<'] <:+: mark c :: rest ↔ [word w, mark '<'] <:+: rest := by
  rw [List.infix_cons_iff, List.cons_prefix_cons]
  simp

theorem startsClosed_closesName_iff (closed : startsClosed closesNameOrHead rest = true) :
    startsClosed closesName rest = true ↔ ¬ [mark '<'] <+: rest := by
  cases rest with
  | nil => simp [startsClosed]
  | cons token rest =>
    cases token with
    | word w => cases closed
    | mark c =>
      have closing : closesName c = true ∨ c = '<' := by
        simpa [startsClosed, closesNameOrHead] using closed
      rw [startsClosed, List.cons_prefix_cons, mark.injEq]
      rcases closing with closing | rfl
      · have other : c ≠ '<' := by
          rintro rfl
          cases closing
        simp [closing, other.symm]
      · simp [closesName, isBlank]

/-- If a `<` closes no name, the words in front of one are kept, and that is all the difference. -/
theorem Placed.mapNames_eq_iff (placed : Placed opened tokens) (image : Text → Text) :
    mapNames closesNameOrHead image opened tokens = mapNames closesName image opened tokens ↔
      ∀ w, [word w, Token.mark '<'] <:+: tokens → image w = w := by
  induction placed with
  | nil => simp [mapNames]
  | mark _ _ _ ih => simp only [mapNames, List.cons.injEq, true_and, ih, applied_cons_mark_iff]
  | @name v rest _ closed _ ih =>
    simp only [applied_cons_iff]
    by_cases given : [Token.mark '<'] <+: rest
    · have open' : startsClosed closesName rest = false := by
        rw [← Bool.not_eq_true, startsClosed_closesName_iff closed, not_not]
        exact given
      simp only [mapNames, closed, open', Bool.and_true, Bool.and_false, if_true,
        Bool.false_eq_true, if_false, List.cons.injEq, word.injEq, ih]
      constructor
      · rintro ⟨own, others⟩ w (⟨rfl, -⟩ | inside)
        · exact own
        · exact others w inside
      · intro all
        exact ⟨all v (.inl ⟨rfl, given⟩), fun w inside => all w (.inr inside)⟩
    · have plain := (startsClosed_closesName_iff closed).2 given
      simp only [mapNames, closed, plain, List.cons.injEq, true_and, ih, given, and_false,
        false_or]
  | @noFormat v rest _ _ _ ih =>
    have keeps : ¬ [Token.mark '<'] <+: Token.mark '#' :: rest := by simp
    simp only [applied_cons_iff, applied_cons_mark_iff, keeps, and_false, false_or, ← ih]
    simp [mapNames, startsClosed, closesName, closesNameOrHead, isBlank, opensName]
  | @format v format rest _ _ closed _ ih =>
    have keeps : ¬ [Token.mark '<'] <+: Token.mark '#' :: word format :: rest := by simp
    have keepsFormat : ¬ [Token.mark '<'] <+: rest := by
      rintro ⟨behind, rfl⟩
      cases closed
    simp only [applied_cons_iff, applied_cons_mark_iff, keeps, keepsFormat, and_false, false_or,
      ← ih]
    simp [mapNames, startsClosed, closesName, closesNameOrHead, isBlank, opensName]

end Token

/-! ## Both ways on types -/

theorem markParameters_eq_render {parameters : List Text} {type : Text}
    (placed : Token.Placed true (Token.scan type)) :
    markParameters parameters type = Token.render
      (Token.mapNames closesNameOrHead (marked parameters) true (Token.scan type)) := by
  have images : marked parameters = fun w =>
      (if w ∈ parameters then some (placeholder w) else none).getD w := by
    funext w
    unfold marked
    split <;> rfl
  rw [images, placed.mapNames_eq_substitute]
  rfl

/-- The search ends. It ends with the prepared type if no parameter is given arguments, and else
with another. -/
theorem exists_markedInTurn {parameters : List Text} {type : Text} (nonempty : parameters ≠ [])
    (names : ∀ p ∈ parameters, isIdentifier p = true)
    (placed : Token.Placed true (Token.scan type)) :
    ∃ result, MarkedInTurn closesName parameters type result ∧
      (markParameters parameters type = result ↔ ∀ p ∈ parameters, ¬ Applied p type) := by
  have separated := placed.separated
  have spelled := (Token.withoutBlanks_render_scan type).symm
  refine ⟨_, Token.markedInTurn (fun _ => closesName_eq_false) nonempty names separated spelled, ?_⟩
  rw [markParameters_eq_render placed]
  have onPieces := placed.mapNames_eq_iff (marked parameters)
  constructor
  · intro same p member applied
    have pieces := Token.render_injective (separated.mapMarked _ parameters true)
      (separated.mapMarked _ parameters true) same
    exact marked_eq_self_iff.1 (onPieces.1 pieces p applied) member
  · intro unapplied
    rw [onPieces.2 fun w applied => marked_eq_self_iff.2 fun member => unapplied w member applied]

/-- If a `<` closes names too, the search ends with the prepared type. -/
theorem markedInTurn_markParameters {parameters : List Text} {type : Text}
    (nonempty : parameters ≠ []) (names : ∀ p ∈ parameters, isIdentifier p = true)
    (placed : Token.Placed true (Token.scan type)) :
    MarkedInTurn closesNameOrHead parameters type (markParameters parameters type) := by
  rw [markParameters_eq_render placed]
  exact Token.markedInTurn (fun _ => closesNameOrHead_eq_false) nonempty names placed.separated
    (Token.withoutBlanks_render_scan type).symm

namespace Template

/-- A template that gives arguments to its parameter. -/
def appliedShape : Definition :=
  { name := "Apply".toList
    parameters := ["F".toList]
    properties := [.new "shape".toList "F<string>".toList true []] }

/-- A parameter that is given arguments gets its placeholder, but the search does not find it. -/
theorem search_passes_over_heads :
    appliedShape.isTemplate = true ∧
      (∀ parameter ∈ appliedShape.parameters, isIdentifier parameter = true) ∧
      TypeExpr.check "F<string>".toList = .ok () ∧
      ((prepare appliedShape).toOption.map fun template =>
        template.properties.map Property.type) = some ["«F»<string>".toList] ∧
      MarkedInTurn closesName appliedShape.distinctParameters "F<string>".toList
        "F<string>".toList ∧
      ¬ MarkedInTurn closesName appliedShape.distinctParameters "F<string>".toList
        "«F»<string>".toList := by
  have fixed : markPass closesName "F".toList "F<string>".toList = "F<string>".toList := by
    decide +kernel
  have ends : MarkedInTurn closesName appliedShape.distinctParameters "F<string>".toList
      "F<string>".toList := ⟨_, ⟨fixed, 0, rfl⟩, rfl⟩
  refine ⟨rfl, by decide +kernel, toOption_eq_some_iff.1 (by decide +kernel), by decide +kernel,
    ends, fun other => ?_⟩
  have same := ends.unique other
  revert same
  decide

/-- A template whose parameters are identifiers can be prepared. Where the type of a property is
well formed, the search between boundaries comes to an end for one parameter after the other. It
ends with the prepared type exactly if the type gives no parameter arguments, and it always does so
if a `<` closes names too. -/
theorem prepare_marks_between_boundaries {d : Definition} (isTemplate : d.isTemplate = true)
    (names : ∀ parameter ∈ d.parameters, isIdentifier parameter = true) :
    ∃ template, prepare d = .ok template ∧
      ∀ (i : Nat) (p : Property), d.properties[i]? = some p → TypeExpr.check p.type = .ok () →
        ∃ q result, template.properties[i]? = some q ∧
          MarkedInTurn closesName d.distinctParameters p.type result ∧
          (q.type = result ↔ ∀ parameter ∈ d.parameters, ¬ Applied parameter p.type) ∧
          MarkedInTurn closesNameOrHead d.distinctParameters p.type q.type := by
  refine ⟨_, prepare_of_identifiers names, fun i p listed checked => ?_⟩
  have distinct : ∀ {parameter}, parameter ∈ d.distinctParameters ↔ parameter ∈ d.parameters :=
    List.mem_eraseDups
  have proper : ∀ parameter ∈ d.distinctParameters, isIdentifier parameter = true :=
    fun parameter member => names parameter (distinct.1 member)
  have nonempty : d.distinctParameters ≠ [] := by
    intro empty
    obtain ⟨parameter, parameters, whole⟩ := List.exists_cons_of_ne_nil
      (by simpa [Definition.isTemplate] using isTemplate : d.parameters ≠ [])
    have member : parameter ∈ d.distinctParameters :=
      distinct.2 (whole ▸ List.mem_cons_self ..)
    rw [empty] at member
    cases member
  have placed : Token.Placed true (Token.scan p.type) := by
    obtain ⟨t, parsed⟩ := check_eq_ok_iff.1 checked
    obtain ⟨before, after, hb, ha, split⟩ := Text.exists_trim_padding p.type
    rw [split, Token.scan_padded hb ha]
    exact (parse_eq_ok_iff.1 parsed).placed
  obtain ⟨result, searched, same⟩ := exists_markedInTurn nonempty proper placed
  refine ⟨{ p with type := markParameters d.distinctParameters p.type }, result, ?_, searched, ?_,
    markedInTurn_markParameters nonempty proper placed⟩
  · rw [List.getElem?_map, listed, Option.map_some]
  · simp only [distinct] at same
    exact same

/-- Listings with rows, and with a view that is a parameter with arguments. -/
def listings : Definition :=
  { name := "Listing".toList
    parameters := ["K".toList, "V".toList, "K".toList]
    properties := [.new "rows".toList " Row< K ,V[], string#V, Kind, >[]".toList true [],
      .new "view".toList "V< K >".toList false []] }

theorem prepare_marks_between_boundaries_listings :
    ∃ template rows view, prepare listings = .ok template ∧
      template.properties[0]? = some rows ∧ template.properties[1]? = some view ∧
      MarkedInTurn closesName listings.distinctParameters
        " Row< K ,V[], string#V, Kind, >[]".toList rows.type ∧
      ¬ MarkedInTurn closesName listings.distinctParameters "V< K >".toList view.type ∧
      MarkedInTurn closesNameOrHead listings.distinctParameters "V< K >".toList view.type ∧
      rows.type = "Row<«K», «V»[], string#V, Kind, >[]".toList ∧
      view.type = "«V»<«K»>".toList := by
  obtain ⟨template, prepared, each⟩ := prepare_marks_between_boundaries (d := listings) rfl
    (by decide +kernel)
  obtain ⟨rows, rowsFound, rowsListed, rowsSearched, rowsSame, -⟩ :=
    each 0 _ rfl (toOption_eq_some_iff.1 (by decide +kernel))
  obtain ⟨view, viewFound, viewListed, viewSearched, viewSame, viewWidely⟩ :=
    each 1 _ rfl (toOption_eq_some_iff.1 (by decide +kernel))
  have unapplied : ∀ parameter ∈ listings.parameters,
      ¬ Applied parameter " Row< K ,V[], string#V, Kind, >[]".toList := by
    unfold Applied
    decide +kernel
  have applied : ∃ parameter ∈ listings.parameters, Applied parameter "V< K >".toList := by
    unfold Applied
    decide +kernel
  have spelled : ((prepare listings).toOption.map fun template =>
      (template.properties[0]?.map Property.type, template.properties[1]?.map Property.type)) =
      some (some "Row<«K», «V»[], string#V, Kind, >[]".toList, some "«V»<«K»>".toList) := by
    decide +kernel
  rw [prepared, Except.toOption, Option.map_some, rowsListed, viewListed] at spelled
  obtain ⟨rowsSpelled, viewSpelled⟩ := Prod.mk.inj (Option.some.inj spelled)
  have found : MarkedInTurn closesName listings.distinctParameters
      " Row< K ,V[], string#V, Kind, >[]".toList rows.type := by
    rw [rowsSame.2 unapplied]
    exact rowsSearched
  refine ⟨template, rows, view, prepared, rowsListed, viewListed, found, fun other => ?_,
    viewWidely, Option.some.inj rowsSpelled, Option.some.inj viewSpelled⟩
  obtain ⟨parameter, member, given⟩ := applied
  exact viewSame.1 (other.unique viewSearched) parameter member given

end Template

end ApiSchema
