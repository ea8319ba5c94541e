import ApiSchema.Proofs.Expansion.Progress

/-!
# Instance names identify instances

Types that are spelled differently may have one display name, and the first of them to be looked at
decides what is registered under it. Nothing is lost by that: a display name is read back as the use
that it was put together from, so types with one display name use the same head with the same
arguments, ask for the same instance, and leave an expander in the same state
(`instances_identified_by_names`).
-/

namespace ApiSchema

variable {type other : Text}

/-! ## One display name, one use -/

/-- Joining the arguments loses nothing. -/
theorem genericUse?_eq_of_displayName?_eq {name : Text} (shown : displayName? type = some name)
    (same : displayName? type = displayName? other) : genericUse? type = genericUse? other := by
  rw [← genericUse?_of_displayName? shown, ← genericUse?_of_displayName? (same.symm.trans shown)]

theorem Catalog.instance?_congr (c : Catalog) (same : genericUse? type = genericUse? other) :
    c.instance? type = c.instance? other := by
  rw [instance?, instance?, same]

/-- The display name of a type whose element is an object with arguments parses to an object with
the same head and the same arguments. -/
theorem parse_displayName {t : TypeExpr} {name head : Text} {arguments : List TypeExpr}
    (parsed : TypeExpr.parse type = .ok t) (element : t.element = .object name head arguments)
    (generic : arguments ≠ []) :
    displayName? type = some (genericText head (arguments.map TypeExpr.name)) ∧
      TypeExpr.parse (genericText head (arguments.map TypeExpr.name)) =
        .ok (.object (genericText head (arguments.map TypeExpr.name)) head arguments) := by
  obtain ⟨inner, derives⟩ := (parse_eq_ok_iff.1 parsed).element
  rw [element] at derives
  obtain ⟨proper, free, derived⟩ := derives.of_object generic
  have use := genericUse?_of_parse parsed element generic
  exact ⟨displayName?_eq_some_iff.2 ⟨_, _, use, rfl⟩,
    parse_of_derives (derives_genericText proper free generic derived)⟩

/-! ## One use, one call -/

namespace Expander

/-- Requests look at the use only, apart from the text in the message when they fail. -/
theorem request_agree (x : Expander) {t u : TypeExpr} (parsed : TypeExpr.parse type = .ok t)
    (parsedOther : TypeExpr.parse other = .ok u)
    (same : t.element.genericUse? = u.element.genericUse?) :
    (x.request type).toOption = (x.request other).toOption := by
  rw [request_eq, request_eq, parsed, parsedOther]
  dsimp only
  rw [same]
  rcases u.element.genericUse? with _ | ⟨head, arguments⟩
  · rfl
  · dsimp only
    cases x.templates.get? head with
    | none => rfl
    | some template =>
      dsimp only
      split <;> rfl

/-- Calls whose requests agree have the same effect. -/
theorem extract_agree (depth : Nat) {x : Expander}
    (agree : (x.request type).toOption = (x.request other).toOption) :
    (x.extract depth type).2 = (x.extract depth other).2 ∧
      ((x.extract depth type).1 = .ok () ↔ (x.extract depth other).1 = .ok ()) := by
  cases depth with
  | zero => exact ⟨rfl, Iff.rfl⟩
  | succ depth =>
    rw [extract, extract]
    cases asked : x.request type with
    | error e =>
      cases askedOther : x.request other with
      | error e' => simp
      | ok use =>
        rw [asked, askedOther] at agree
        cases agree
    | ok use =>
      rw [asked] at agree
      rw [toOption_eq_some_iff.1 agree.symm]
      exact ⟨rfl, Iff.rfl⟩

end Expander

/-- Let the elements of two types be objects with arguments. The display name of the first parses to
an object with the same head and arguments, and is its own display name. If both types have the same
display name, they have the same head and the same arguments, every table of templates makes the
same instance for them, and a call for the one does to an expander what a call for the other
does. -/
theorem instances_identified_by_names {t u : TypeExpr} {name name' head head' : Text}
    {arguments arguments' : List TypeExpr}
    (parsed : TypeExpr.parse type = .ok t) (element : t.element = .object name head arguments)
    (generic : arguments ≠ [])
    (parsedOther : TypeExpr.parse other = .ok u)
    (elementOther : u.element = .object name' head' arguments') (genericOther : arguments' ≠ []) :
    (∃ display, display = genericText head (arguments.map TypeExpr.name) ∧
        displayName? type = some display ∧
        TypeExpr.parse display = .ok (.object display head arguments) ∧
        displayName? display = some display) ∧
      (displayName? type = displayName? other → head = head' ∧ arguments = arguments' ∧
        (∀ c : Catalog, c.instance? type = c.instance? other) ∧
        ∀ (x : Expander) (depth : Nat),
          (x.request type).toOption = (x.request other).toOption ∧
          (x.extract depth type).2 = (x.extract depth other).2 ∧
          ((x.extract depth type).1 = .ok () ↔ (x.extract depth other).1 = .ok ())) := by
  obtain ⟨shown, read⟩ := parse_displayName parsed element generic
  obtain ⟨shownOther, readOther⟩ := parse_displayName parsedOther elementOther genericOther
  refine ⟨⟨_, rfl, shown, read, (parse_displayName read rfl generic).1⟩, fun same => ?_⟩
  -- both display names are one text, and a text has one tree
  have texts := Option.some.inj (shown.symm.trans (same.trans shownOther))
  rw [← texts, read] at readOther
  obtain ⟨-, rfl, rfl⟩ := TypeExpr.object.inj (Except.ok.inj readOther)
  refine ⟨rfl, rfl, fun c => c.instance?_congr (genericUse?_eq_of_displayName?_eq shown same),
    fun x depth => ?_⟩
  have uses : t.element.genericUse? = u.element.genericUse? := by
    rw [element, elementOther]
    rfl
  have agree := x.request_agree parsed parsedOther uses
  exact ⟨agree, Expander.extract_agree depth agree⟩

/-- Blanks, a comma too many and brackets behind the element do not show in the display name;
blanks inside of an argument do. -/
theorem instances_identified_by_names_page :
    ∃ t u name name' arguments,
      TypeExpr.parse " Page< Map<string,Item> ,>[] ".toList = .ok t ∧
      t.element = .object name "Page".toList arguments ∧
      TypeExpr.parse "Page<Map<string,Item>>".toList = .ok u ∧
      u.element = .object name' "Page".toList arguments ∧
      displayName? " Page< Map<string,Item> ,>[] ".toList = some "Page<Map<string,Item>>".toList ∧
      displayName? "Page<Map<string, Item>>".toList ≠ some "Page<Map<string,Item>>".toList ∧
      ∀ (x : Expander) (depth : Nat),
        (x.extract depth " Page< Map<string,Item> ,>[] ".toList).2 =
          (x.extract depth "Page<Map<string,Item>>".toList).2 := by
  have use : genericUse? " Page< Map<string,Item> ,>[] ".toList =
      some ("Page".toList, ["Map<string,Item>".toList]) := by
    decide +kernel
  have useOther : genericUse? "Page<Map<string,Item>>".toList =
      some ("Page".toList, ["Map<string,Item>".toList]) := by
    decide +kernel
  have shown : displayName? " Page< Map<string,Item> ,>[] ".toList =
      some "Page<Map<string,Item>>".toList := by
    decide +kernel
  have same : displayName? " Page< Map<string,Item> ,>[] ".toList =
      displayName? "Page<Map<string,Item>>".toList := by
    decide +kernel
  have spaced : displayName? "Page<Map<string, Item>>".toList ≠
      some "Page<Map<string,Item>>".toList := by
    decide +kernel
  obtain ⟨t, parsed, inner⟩ := genericUse?_eq_some_iff.1 use
  obtain ⟨name, arguments, element, generic, -⟩ := TypeExpr.genericUse?_eq_some_iff.1 inner
  obtain ⟨u, parsedOther, innerOther⟩ := genericUse?_eq_some_iff.1 useOther
  obtain ⟨name', arguments', elementOther, genericOther, -⟩ :=
    TypeExpr.genericUse?_eq_some_iff.1 innerOther
  obtain ⟨-, identified⟩ := instances_identified_by_names parsed element generic parsedOther
    elementOther genericOther
  obtain ⟨-, rfl, -, calls⟩ := identified same
  exact ⟨t, u, name, name', arguments, parsed, element, parsedOther, elementOther, shown, spaced,
    fun x depth => (calls x depth).2.1⟩

end ApiSchema
