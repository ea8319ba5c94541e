import ApiSchema.TypeExpr.Basic

/-!
The outline of a type expression: one line for each node, two blanks of indentation for each
step down, and the format of a primitive in parentheses unless it is empty.
-/

namespace ApiSchema

namespace TypeExpr

/-- What an outline says about a primitive. -/
def primitiveLabel (kind : Primitive) (format : Text) : Text :=
  if format.isEmpty then
    "primitive ".toList ++ kind.keyword
  else
    "primitive ".toList ++ kind.keyword ++ " (format: ".toList ++ format ++ [')']

/-- A line of an outline, `depth` steps down. -/
def outlineLine (depth : Nat) (label : Text) : Text :=
  List.replicate (2 * depth) ' ' ++ label ++ ['\n']

mutual

/-- The lines of a node `depth` steps down, and of what is below it. -/
def outlineLines (depth : Nat) : TypeExpr → List Text
  | primitive _ kind format => [outlineLine depth (primitiveLabel kind format)]
  | object _ head arguments =>
    outlineLine depth ("object ".toList ++ head) :: argumentLines (depth + 1) arguments
  | array _ item => outlineLine depth "array".toList :: outlineLines (depth + 1) item

/-- The lines of arguments, one below the other. -/
def argumentLines (depth : Nat) : List TypeExpr → List Text
  | [] => []
  | argument :: arguments => outlineLines depth argument ++ argumentLines depth arguments

end

/-- The outline of a type expression. -/
def outline (t : TypeExpr) : Text :=
  (outlineLines 0 t).flatten

end TypeExpr

end ApiSchema
