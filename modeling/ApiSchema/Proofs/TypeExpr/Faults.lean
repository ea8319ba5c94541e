import ApiSchema.Proofs.TypeExpr.Parsing

/-!
# Where a text is malformed

Only the whole text and the arguments in it are trimmed, but no level has a blank at either end:
what stands before a `[]` starts as the level does, and a blank at its end is refused. So
`Level.Part.tight` carries from a level to its parts what trimming gives to the whole text, and the
level that an error blames is malformed in the same way when it is read alone
(`check_blames_level`). Checking and parsing go through the levels in one order, so they blame the
same one (`check_agrees_with_parse`).
-/

namespace ApiSchema

/-! ## The parts of a level -/

namespace Level

/-- The texts that are read further: the item of an array and the arguments of an object. -/
inductive Part : Level → Text → Prop
  | item (item : Text) : Part (.array item) item
  | argument {head argument : Text} {arguments : List Text} : argument ∈ arguments →
    Part (.object head arguments) argument

variable {text piece : Text} {level : Level}

theorem Part.length_lt (part : Part level piece) (read : ofText text = .ok level) :
    piece.length < text.length := by
  cases part with
  | item => exact length_of_array read
  | argument member => exact length_of_object read _ member

theorem Part.isInfix (part : Part level piece) (read : ofText text = .ok level) :
    piece <:+: text := by
  have written := ofText_eq_ok_iff.1 read
  cases part with
  | item =>
    cases written
    exact (List.prefix_append _ _).isInfix
  | @argument head _ _ member =>
    cases written with
    | name => cases member
    | @generic _ inside _ _ _ divided _ =>
      have standsInside := (tight_and_infix_of_mem_splitArguments divided member).2
      exact standsInside.trans ⟨head ++ ['<'], ['>'], by simp⟩

/-- The parts of a text without blanks at its ends have none at theirs. -/
theorem Part.tight (part : Part level piece) (read : ofText text = .ok level)
    (tight : text.Tight) : piece.Tight := by
  have written := ofText_eq_ok_iff.1 read
  cases part with
  | item =>
    cases written with
    | array ended =>
      constructor
      · intro c first
        obtain ⟨rest, rfl⟩ := List.head?_eq_some_iff.1 first
        exact tight.head c rfl
      · intro c last
        rw [Text.endsBlank, Option.any_eq_false] at ended
        exact ended c last
  | argument member =>
    cases written with
    | name => cases member
    | generic _ _ divided _ => exact (tight_and_infix_of_mem_splitArguments divided member).1

end Level

/-! ## The level that an error blames -/

variable {text : Text} {e : TypeError}

/-- A text fails to parse as a level of its own, or by one of its parts. -/
theorem parseLevel_eq_error (failed : TypeExpr.parseLevel text = .error e) :
    (∃ reason, Level.ofText text = .error reason ∧ e = .malformed text reason) ∨
      ∃ level piece, Level.ofText text = .ok level ∧ level.Part piece ∧
        TypeExpr.parseLevel piece = .error e := by
  rw [TypeExpr.parseLevel_eq] at failed
  cases read : Level.ofText text with
  | error reason =>
    rw [read] at failed
    cases failed
    exact .inl ⟨reason, rfl, rfl⟩
  | ok level =>
    rw [read] at failed
    cases level with
    | primitive => cases failed
    | array item => exact .inr ⟨_, item, rfl, .item item, map_eq_error_iff.1 failed⟩
    | object head arguments =>
      obtain ⟨argument, member, stopped⟩ := exists_error_of_mapM (map_eq_error_iff.1 failed)
      exact .inr ⟨_, argument, rfl, .argument member, stopped⟩

/-- A text that does not parse is malformed at a level that stands in it. -/
theorem exists_malformed_level {text : Text} (failed : TypeExpr.parseLevel text = .error e) :
    ∃ piece reason, e = .malformed piece reason ∧ Level.ofText piece = .error reason ∧
      piece <:+: text ∧ (text.Tight → piece.Tight) := by
  rcases parseLevel_eq_error failed with ⟨reason, unread, rfl⟩ | ⟨level, part, read, isPart, inner⟩
  · exact ⟨text, reason, rfl, unread, List.infix_rfl, id⟩
  · have shorter := isPart.length_lt read
    obtain ⟨piece, reason, same, unread, stands, keeps⟩ := exists_malformed_level inner
    exact ⟨piece, reason, same, unread, stands.trans (isPart.isInfix read),
      fun tight => keeps (isPart.tight read tight)⟩
termination_by text.length

theorem exists_malformed_of_parseLevel (failed : TypeExpr.parseLevel text = .error e) :
    ∃ piece reason, e = .malformed piece reason := by
  obtain ⟨piece, reason, same, -⟩ := exists_malformed_level failed
  exact ⟨piece, reason, same⟩

theorem check_eq_error_iff : TypeExpr.check text = .error e ↔ TypeExpr.parse text = .error e := by
  rw [check_eq_map_parse, map_eq_error_iff]

/-- A text passes the check exactly when it parses, and where it does not, the check and the parser
blame the same piece for the same reason. -/
theorem check_agrees_with_parse (text : Text) :
    (TypeExpr.check text = .ok () ↔ ∃ t, TypeExpr.parse text = .ok t) ∧
      (∀ e, TypeExpr.check text = .error e ↔ TypeExpr.parse text = .error e) ∧
      ∀ e, TypeExpr.check text = .error e → ∃ piece reason, e = .malformed piece reason := by
  refine ⟨check_eq_ok_iff, fun e => check_eq_error_iff, fun e failed => ?_⟩
  exact exists_malformed_of_parseLevel (check_eq_error_iff.1 failed)

/-- What an error blames stands in the text as it is, is malformed as a level of its own, and fails
the check alone with the same error. -/
theorem check_blames_level {piece : Text} {reason : Malformed}
    (failed : TypeExpr.check text = .error (.malformed piece reason)) :
    piece <:+: text ∧ Level.ofText piece = .error reason ∧
      TypeExpr.check piece = .error (.malformed piece reason) := by
  obtain ⟨blamed, cause, same, unread, stands, keeps⟩ :=
    exists_malformed_level (check_eq_error_iff.1 failed)
  obtain ⟨rfl, rfl⟩ := TypeError.malformed.inj same
  have alone : Text.trim piece = piece := Text.trim_of_tight (keeps (Text.tight_trim text))
  refine ⟨stands.trans (Text.isInfix_trim text), unread, ?_⟩
  rw [TypeExpr.check, alone, TypeExpr.checkLevel_eq, unread]

/-- Below two arrays, an argument and another array, with blanks around each argument. -/
theorem check_blames_level_user :
    TypeExpr.check " Map< K ,\tRow< integer, User []\n>[] >[][]".toList =
        .error (.malformed "User []".toList .blankBeforeArray) ∧
      "User []".toList <:+: " Map< K ,\tRow< integer, User []\n>[] >[][]".toList ∧
      Level.ofText "User []".toList = .error .blankBeforeArray ∧
      TypeExpr.check "User []".toList =
        .error (.malformed "User []".toList .blankBeforeArray) := by
  have failed : TypeExpr.check " Map< K ,\tRow< integer, User []\n>[] >[][]".toList =
      .error (.malformed "User []".toList .blankBeforeArray) := by decide +kernel
  exact ⟨failed, check_blames_level failed⟩

end ApiSchema
