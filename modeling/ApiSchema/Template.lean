import ApiSchema.Definition.Basic
import ApiSchema.Token
import ApiSchema.TypeExpr.Level

/-!
Templates that are ready for instantiation.

In a prepared template each parameter, and each use of it in the type of a property, is a
placeholder such as `«T»`. An instance puts arguments in the places of the placeholders, one
parameter after the other, and is named after its template and arguments, as in `Page<Item>`.
-/

namespace ApiSchema

/-- The placeholder of a parameter. No name of a type can hold its marks. -/
def placeholder (parameter : Text) : Text :=
  '«' :: parameter ++ ['»']

/-- True of a text between placeholder marks that is not only the marks. -/
def isPlaceholder (text : Text) : Bool :=
  4 < text.byteCount && text.head? == some '«' && text.getLast? == some '»'

/-- A template whose parameters are placeholders. -/
structure Template where
  name : Text
  description : Text
  /-- the placeholders, each once -/
  placeholders : List Text
  /-- properties with placeholders in their types -/
  properties : List Property
  deriving Repr, Inhabited

/-- The parameters of a definition, each at its first place only. -/
def Definition.distinctParameters (d : Definition) : List Text :=
  d.parameters.eraseDups

/-- A type with placeholders for parameters. -/
def markParameters (parameters : List Text) (type : Text) : Text :=
  substituteWords (fun word => if word ∈ parameters then some (placeholder word) else none) type

namespace Template

/-- Prepares a definition. The first parameter that is no identifier is an error. -/
def prepare (d : Definition) : Except TypeError Template :=
  match d.parameters.find? (!isIdentifier ·) with
  | some parameter => .error (.badParameter d.name parameter)
  | none => .ok {
      name := d.name
      description := d.description
      placeholders := d.distinctParameters.map placeholder
      properties := d.properties.map fun p =>
        { p with type := markParameters d.distinctParameters p.type } }

/-- A type with arguments in the places of the placeholders. -/
def fill (placeholders arguments : List Text) (type : Text) : Text :=
  (placeholders.zip arguments).foldl (fun type pair => Text.replace pair.1 pair.2 type) type

/-- The name of a template with arguments. -/
def instanceName (template : Template) (arguments : List Text) : Text :=
  template.name ++ '<' :: Text.join [',', ' '] arguments ++ ['>']

/-- A template with arguments for its parameters. -/
def instantiate (template : Template) (arguments : List Text) : ConcreteDefinition where
  name := template.instanceName arguments
  description := template.description
  properties := template.properties.map fun p =>
    { p with type := fill template.placeholders arguments p.type }

end Template

end ApiSchema
