import ApiSchema.TypeExpr.Level

/-!
Checking and parsing of type expressions.

`TypeExpr.check` walks over the levels of a text, and `TypeExpr.parse` builds its tree. Both look
at the levels from the outside in and at arguments from the left, so both report the first level
that is malformed. Only the whole text and each argument are trimmed: any other blank is an
error at its level.

Main statements: `TypeExpr.checkLevel_eq` and `TypeExpr.parseLevel_eq` unfold one level.
-/

namespace ApiSchema

namespace TypeExpr

/-- Checks a text that is already trimmed. -/
def checkLevel (text : Text) : Except TypeError Unit :=
  match h : Level.ofText text with
  | .error reason => .error (.malformed text reason)
  | .ok (.array item) =>
    have := Level.length_of_array h
    checkLevel item
  | .ok (.primitive _ _) => .ok ()
  | .ok (.object _ arguments) =>
    arguments.attach.forM fun argument =>
      have := Level.length_of_object h argument.1 argument.2
      checkLevel argument.1
termination_by text.length

/-- Checks that a text is a type expression. -/
def check (text : Text) : Except TypeError Unit :=
  checkLevel (Text.trim text)

/-- Parses a text that is already trimmed. -/
def parseLevel (text : Text) : Except TypeError TypeExpr :=
  match h : Level.ofText text with
  | .error reason => .error (.malformed text reason)
  | .ok (.array item) =>
    have := Level.length_of_array h
    (parseLevel item).map (array text)
  | .ok (.primitive kind format) =>
    .ok (primitive text kind (format.getD kind.defaultFormat))
  | .ok (.object head arguments) =>
    (arguments.attach.mapM fun argument =>
      have := Level.length_of_object h argument.1 argument.2
      parseLevel argument.1).map (object text head)
termination_by text.length

/-- Parses a type expression, with blanks allowed around it. -/
def parse (text : Text) : Except TypeError TypeExpr :=
  parseLevel (Text.trim text)

/-! ## One level at a time -/

theorem forM_attach (arguments : List Text) (f : Text → Except TypeError Unit) :
    (arguments.attach.forM fun argument => f argument.1) = arguments.forM f := by
  have h := List.forM_map (l := arguments.attach) (g := Subtype.val) (f := f)
  rw [List.attach_map_subtype_val] at h
  exact h.symm

theorem checkLevel_eq (text : Text) :
    checkLevel text = match Level.ofText text with
      | .error reason => .error (.malformed text reason)
      | .ok (.array item) => checkLevel item
      | .ok (.primitive _ _) => .ok ()
      | .ok (.object _ arguments) => arguments.forM checkLevel := by
  rw [checkLevel]
  split <;> simp_all only [forM_attach]

theorem parseLevel_eq (text : Text) :
    parseLevel text = match Level.ofText text with
      | .error reason => .error (.malformed text reason)
      | .ok (.array item) => (parseLevel item).map (array text)
      | .ok (.primitive kind format) =>
        .ok (primitive text kind (format.getD kind.defaultFormat))
      | .ok (.object head arguments) => (arguments.mapM parseLevel).map (object text head) := by
  rw [parseLevel]
  split <;> simp_all [List.mapM_subtype]

end TypeExpr

end ApiSchema
