import ApiSchema.Text.Basic

/-!
Type expressions: primitives with a format, objects with arguments, and arrays.

A node keeps the text that it was read from in `name`. `TypeExpr.element` takes the array
layers off, and `TypeExpr.asObject?` looks at the name and the arguments of an object.
-/

namespace ApiSchema

/-- The primitive types. -/
inductive Primitive where
  | integer
  | number
  | string
  | boolean
  | file
  deriving DecidableEq, Repr

namespace Primitive

/-- The primitives in the order in which they are looked for. -/
def all : List Primitive :=
  [.integer, .number, .string, .boolean, .file]

/-- The word that names a primitive. -/
def keyword : Primitive → Text
  | .integer => "integer".toList
  | .number => "number".toList
  | .string => "string".toList
  | .boolean => "boolean".toList
  | .file => "file".toList

/-- The primitive that a word names. -/
def ofKeyword? (word : Text) : Option Primitive :=
  all.find? fun primitive => primitive.keyword = word

/-- The format of a primitive that is written without one. -/
def defaultFormat : Primitive → Text
  | .integer => "int32".toList
  | .number => "double".toList
  | .string | .boolean | .file => []

end Primitive

/-- The words that are neither primitives nor names of objects. -/
def metaWords : List Text :=
  ["array".toList, "object".toList]

/-- The words that take no arguments. -/
def reservedWords : List Text :=
  Primitive.all.map Primitive.keyword ++ metaWords

/-- A type expression. Each node carries the text that it was read from. -/
inductive TypeExpr where
  /-- a primitive, as in `string` or `string#date` -/
  | primitive (name : Text) (kind : Primitive) (format : Text)
  /-- a named object, with arguments as in `Page<Item>` or without any as in `Item` -/
  | object (name head : Text) (arguments : List TypeExpr)
  /-- one array layer, as in `Item[]` -/
  | array (name : Text) (item : TypeExpr)
  deriving Repr

namespace TypeExpr

/-- The text that a node was read from. -/
def name : TypeExpr → Text
  | primitive name _ _ => name
  | object name _ _ => name
  | array name _ => name

/-- What is left after every outer array layer is taken off. -/
def element : TypeExpr → TypeExpr
  | array _ item => item.element
  | other => other

/-- The number of outer array layers. -/
def arrayDepth : TypeExpr → Nat
  | array _ item => item.arrayDepth + 1
  | _ => 0

/-- The name and the arguments of an object. -/
def asObject? : TypeExpr → Option (Text × List TypeExpr)
  | object _ head arguments => some (head, arguments)
  | _ => none

end TypeExpr

end ApiSchema
