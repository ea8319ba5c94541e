import ApiSchema.Proofs.Expansion.Granted
import ApiSchema.Proofs.TypeExpr.Faults

/-!
# Every error has a place

An expansion fails for one of two reasons. A definition lists a parameter that is no identifier:
then nothing is expanded, and the error names the first such parameter (`ofDefinitions_eq_error`).
Or a type that can be reached from the given ones is refused: `Catalog.Refuses` lists what can be
wrong with a type in view of the templates alone, and `Expander.exists_refused` finds the type,
however many instances lie between it and a given one. `expandAll_error_genuine` puts the two
together.
-/

namespace ApiSchema

open Relation

variable {definitions : List Definition} {types : List Text} {c : Catalog}

/-! ## Parameters that are no identifiers -/

/-- The first parameter that is no identifier, behind the name of the definition that lists it. -/
def firstBadParameter? (definitions : List Definition) : Option (Text × Text) :=
  definitions.findSome? fun d => (d.parameters.find? (!isIdentifier ·)).map (d.name, ·)

theorem firstBadParameter?_eq_none_iff :
    firstBadParameter? definitions = none ↔
      ∀ d ∈ definitions, ∀ parameter ∈ d.parameters, isIdentifier parameter = true := by
  simp [firstBadParameter?, List.findSome?_eq_none_iff]

namespace Expander

variable {x y : Expander}

/-- A definition is taken in unless it lists a parameter that is no identifier. -/
theorem add_eq (x : Expander) (d : Definition) :
    match d.parameters.find? (!isIdentifier ·) with
    | some parameter => x.add d = .error (.badParameter d.name parameter)
    | none => ∃ y, x.add d = .ok y := by
  unfold add Template.prepare
  cases bad : d.parameters.find? (!isIdentifier ·) with
  | none =>
    cases d.isTemplate with
    | false => exact ⟨_, rfl⟩
    | true => exact ⟨_, rfl⟩
  | some parameter =>
    have listed := List.mem_of_find?_eq_some bad
    have template : d.isTemplate = true := by
      rw [Definition.isTemplate, Bool.not_eq_true', List.isEmpty_eq_false_iff]
      exact List.ne_nil_of_mem listed
    rw [if_pos template]
    rfl

theorem foldlM_add_eq_error {e : TypeError} :
    definitions.foldlM add x = .error e ↔
      ∃ name parameter, firstBadParameter? definitions = some (name, parameter) ∧
        e = .badParameter name parameter := by
  induction definitions generalizing x with
  | nil => simp [firstBadParameter?, pure, Except.pure]
  | cons d definitions ih =>
    have outcome := x.add_eq d
    rw [List.foldlM_cons, firstBadParameter?, List.findSome?_cons, ← firstBadParameter?]
    cases bad : d.parameters.find? (!isIdentifier ·) with
    | some parameter =>
      rw [bad] at outcome
      dsimp only at outcome
      rw [outcome]
      simp [bind, Except.bind, eq_comm]
    | none =>
      rw [bad] at outcome
      obtain ⟨y, added⟩ := outcome
      rw [added]
      exact ih

/-- No expansion starts exactly if a parameter is no identifier, and the first is the error. -/
theorem ofDefinitions_eq_error {e : TypeError} :
    ofDefinitions definitions = .error e ↔
      ∃ name parameter, firstBadParameter? definitions = some (name, parameter) ∧
        e = .badParameter name parameter :=
  foldlM_add_eq_error

end Expander

/-! ## Types that are refused -/

/-- What is wrong with a type: it does not parse, or its element gives arguments to a name that is
no template's, or a template more or fewer of them than it has parameters. -/
inductive Catalog.Refuses (c : Catalog) (type : Text) : TypeError → Prop
  | malformed {e : TypeError} : TypeExpr.parse type = .error e → c.Refuses type e
  | unknown {head : Text} {arguments : List Text} :
    genericUse? type = some (head, arguments) → c.template? head = none →
    c.Refuses type (.unknownTemplate type head)
  | arity {head : Text} {arguments : List Text} {template : Template} :
    genericUse? type = some (head, arguments) → c.template? head = some template →
    arguments.length ≠ template.placeholders.length →
    c.Refuses type (.arityMismatch type head template.placeholders.length arguments.length)

theorem DrawsOn.refuses_of_request {x : Expander} (draws : DrawsOn c x) {type : Text}
    {e : TypeError} (refused : x.request type = .error e) : c.Refuses type e := by
  rw [Expander.request_eq] at refused
  cases parsed : TypeExpr.parse type with
  | error fault =>
    rw [parsed] at refused
    cases refused
    exact .malformed parsed
  | ok t =>
    rw [parsed] at refused
    dsimp only at refused
    cases inner : t.element.genericUse? with
    | none =>
      rw [inner] at refused
      cases refused
    | some use =>
      obtain ⟨head, arguments⟩ := use
      have used : genericUse? type = some (head, arguments) :=
        genericUse?_eq_some_iff.2 ⟨t, parsed, inner⟩
      rw [inner] at refused
      dsimp only at refused
      rw [draws.templates] at refused
      cases found : c.template? head with
      | none =>
        rw [found] at refused
        cases refused
        exact .unknown used found
      | some template =>
        rw [found] at refused
        dsimp only at refused
        split at refused
        · rename_i different
          cases refused
          exact .arity used found different
        · cases refused

namespace Expander

variable {x : Expander} {depth : Nat}

/-- The error of an extraction is about a type that is reached and refused. -/
theorem exists_refused {e : TypeError} (draws : DrawsOn c x)
    (run : x.extractAll depth types = .error (.error e)) :
    ∃ type, c.Reached types type ∧ c.Refuses type e := by
  obtain ⟨given, member, z, y, drawsThere, stopped⟩ := extractAll_eq_error draws run
  obtain ⟨names, last, stops⟩ := exists_stopsAt drawsThere stopped
  rcases stops.cause with ⟨deep, -⟩ | ⟨fault, same, refused⟩
  · cases deep
  · cases same
    -- the calls on the way saw other states, but none of them changed the templates
    exact ⟨last, ⟨given, member, stops.leads.calls⟩, drawsThere.refuses_of_request refused⟩

end Expander

/-! ## Errors of an expansion -/

theorem expandAll_eq_error {depth : Nat} {stop : Stop}
    (failed : expandAll depth definitions types = .error stop) :
    (∃ e, Expander.ofDefinitions definitions = .error e ∧ stop = .error e) ∨
      ∃ x, Expander.ofDefinitions definitions = .ok x ∧
        x.extractAll depth types = .error stop := by
  unfold expandAll at failed
  cases started : Expander.ofDefinitions definitions with
  | error e =>
    rw [started] at failed
    cases failed
    exact .inl ⟨e, rfl, rfl⟩
  | ok x =>
    rw [started] at failed
    cases extracted : x.extractAll depth types with
    | error other =>
      simp only [Except.mapError, bind, Except.bind, extracted] at failed
      cases failed
      exact .inr ⟨x, rfl, extracted⟩
    | ok y =>
      simp only [Except.mapError, bind, Except.bind, extracted, pure, Except.pure] at failed
      cases failed

theorem Catalog.Refuses.ne_badParameter {type : Text} {e : TypeError} (refuses : c.Refuses type e)
    (name parameter : Text) : e ≠ .badParameter name parameter := by
  intro same
  cases refuses with
  | malformed failed =>
    obtain ⟨piece, reason, other⟩ := exists_malformed_of_parseLevel failed
    rw [same] at other
    cases other
  | unknown => cases same
  | arity => cases same

/-- Where all parameters are identifiers, what counts for a name is its last definition with
parameters. -/
theorem Catalog.Refuses.of_ofDefinitions
    (names : ∀ d ∈ definitions, ∀ parameter ∈ d.parameters, isIdentifier parameter = true)
    {type : Text} {e : TypeError} (refuses : (Catalog.ofDefinitions definitions).Refuses type e) :
    TypeExpr.parse type = .error e ∨
      ∃ head arguments, genericUse? type = some (head, arguments) ∧
        (templateNamed definitions head = none ∧ e = .unknownTemplate type head ∨
          ∃ source, templateNamed definitions head = some source ∧
            source.distinctParameters.length ≠ arguments.length ∧
            e = .arityMismatch type head source.distinctParameters.length arguments.length) := by
  cases refuses with
  | malformed failed => exact .inl failed
  | @unknown head arguments use missing =>
    refine .inr ⟨head, arguments, use, .inl ⟨?_, rfl⟩⟩
    apply Option.eq_none_iff_forall_ne_some.2
    intro source last
    have proper : source.parameters.find? (!isIdentifier ·) = none :=
      List.find?_eq_none.2 fun parameter member => by
        simp [names source (mem_of_templateNamed last).1 parameter member]
    have prepared : ∃ template, Template.prepare source = .ok template := by
      unfold Template.prepare
      rw [proper]
      exact ⟨_, rfl⟩
    obtain ⟨template, prepared⟩ := prepared
    rw [Catalog.template?_ofDefinitions.2 ⟨source, last, prepared⟩] at missing
    cases missing
  | @arity head arguments template use found different =>
    obtain ⟨source, last, prepared⟩ := Catalog.template?_ofDefinitions.1 found
    have count : template.placeholders.length = source.distinctParameters.length := by
      rw [(Template.prepare_eq_ok prepared).2, List.length_map]
    rw [count] at different ⊢
    exact .inr ⟨head, arguments, use, .inr ⟨source, last, different.symm, rfl⟩⟩

/-- An expansion that fails blames a parameter exactly if one is no identifier, and then the first
in the order of the definitions. Otherwise a type is to blame that can be reached from the given
ones: it does not parse, or its element gives arguments to a name that no template has, or to the
last template of a name more or fewer than this has distinct parameters. -/
theorem expandAll_error_genuine {depth : Nat} {e : TypeError}
    (failed : expandAll depth definitions types = .error (.error e)) :
    (∀ name parameter, e = .badParameter name parameter ↔
        firstBadParameter? definitions = some (name, parameter)) ∧
      ((∀ d ∈ definitions, ∀ parameter ∈ d.parameters, isIdentifier parameter = true) →
        ∃ type, (Catalog.ofDefinitions definitions).Reached types type ∧
          (TypeExpr.parse type = .error e ∨
            ∃ head arguments, genericUse? type = some (head, arguments) ∧
              (templateNamed definitions head = none ∧ e = .unknownTemplate type head ∨
                ∃ source, templateNamed definitions head = some source ∧
                  source.distinctParameters.length ≠ arguments.length ∧
                  e = .arityMismatch type head source.distinctParameters.length
                    arguments.length))) := by
  rcases expandAll_eq_error failed with ⟨fault, unstarted, same⟩ | ⟨x, started, stopped⟩
  · obtain ⟨name, parameter, first, rfl⟩ := Expander.ofDefinitions_eq_error.1 unstarted
    cases same
    refine ⟨fun other parameter' => by simp [first], fun names => ?_⟩
    rw [firstBadParameter?_eq_none_iff.2 names] at first
    cases first
  · obtain ⟨type, reached, refuses⟩ :=
      Expander.exists_refused (drawsOn_ofDefinitions started) stopped
    refine ⟨fun name parameter => ⟨fun same => ?_, fun first => ?_⟩, fun names => ?_⟩
    · exact (refuses.ne_badParameter name parameter same).elim
    · rw [Expander.ofDefinitions_eq_error.2 ⟨name, parameter, first, rfl⟩] at started
      cases started
    · exact ⟨type, reached, refuses.of_ofDefinitions names⟩

/-- Pages of halves, which take two distinct parameters and are given one argument. -/
def pagesOfHalves : List Definition := [
  .new "Item".toList [],
  { name := "Page".toList
    parameters := ["T".toList]
    properties := [.new "rows".toList "Half<T>[]".toList true []] },
  { name := "Half".toList
    parameters := ["L".toList, "R".toList, "L".toList]
    properties := [.new "left".toList "L".toList true []] }]

/-- A definition that nothing refers to. -/
def oddParameters : Definition :=
  { name := "Odd".toList, parameters := ["T".toList, "T-1".toList] }

theorem expandAll_error_genuine_pagesOfHalves :
    expandAll 5 pagesOfHalves ["Item".toList, " Page< Item >[]".toList] =
        .error (.error (.arityMismatch "Half<Item>[]".toList "Half".toList 2 1)) ∧
      (∃ arguments source, (Catalog.ofDefinitions pagesOfHalves).Reached
          ["Item".toList, " Page< Item >[]".toList] "Half<Item>[]".toList ∧
        genericUse? "Half<Item>[]".toList = some ("Half".toList, arguments) ∧
        templateNamed pagesOfHalves "Half".toList = some source ∧
        source.distinctParameters.length = 2 ∧ arguments.length = 1) ∧
      expandAll 5 (oddParameters :: pagesOfHalves) ["Page<Item>".toList] =
        .error (.error (.badParameter "Odd".toList "T-1".toList)) ∧
      firstBadParameter? (oddParameters :: pagesOfHalves) =
        some ("Odd".toList, "T-1".toList) := by
  have failed : expandAll 5 pagesOfHalves ["Item".toList, " Page< Item >[]".toList] =
      .error (.error (.arityMismatch "Half<Item>[]".toList "Half".toList 2 1)) :=
    map_eq_error_iff.1 (by decide +kernel :
      (expandAll 5 pagesOfHalves ["Item".toList, " Page< Item >[]".toList]).map (fun _ => ()) = _)
  have unstarted : expandAll 5 (oddParameters :: pagesOfHalves) ["Page<Item>".toList] =
      .error (.error (.badParameter "Odd".toList "T-1".toList)) :=
    map_eq_error_iff.1 (by decide +kernel :
      (expandAll 5 (oddParameters :: pagesOfHalves) ["Page<Item>".toList]).map (fun _ => ()) = _)
  refine ⟨failed, ?_, unstarted, ((expandAll_error_genuine unstarted).1 _ _).1 rfl⟩
  obtain ⟨type, reached, unparsed | ⟨head, arguments, use, ⟨-, other⟩ | ⟨source, last, -, same⟩⟩⟩ :=
    (expandAll_error_genuine failed).2 (by decide +kernel)
  · obtain ⟨piece, reason, other⟩ := exists_malformed_of_parseLevel unparsed
    cases other
  · cases other
  · obtain ⟨rfl, rfl, two, one⟩ := TypeError.arityMismatch.inj same
    exact ⟨arguments, source, reached, use, last, two.symm, one.symm⟩

end ApiSchema
