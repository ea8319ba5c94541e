import ApiSchema.Json.Value

/-!
Definitions: named lists of properties, with or without parameters.

A definition with parameters is a template, one without is plain. A concrete definition is what
expansion puts out: a plain definition, or a template with arguments for its parameters, which
has a name such as `Page<Item>`.
-/

namespace ApiSchema

/-- A property of a definition. In a template its type may name the template's parameters. -/
structure Property where
  name : Text := []
  type : Text := []
  required : Bool := false
  description : Text := []
  allowEmpty : Bool := false
  default : Option Json.Value := none
  sample : Option Json.Value := none
  choices : List Json.Value := []
  minLength : Option UInt64 := none
  maxLength : Option UInt64 := none
  minimum : Option Int64 := none
  maximum : Option Int64 := none
  deriving Repr, Inhabited

namespace Property

/-- A property without any further conditions. -/
def new (name type : Text) (required : Bool) (description : Text) : Property :=
  { name, type, required, description }

/-- Sets whether the value may be empty. -/
def withAllowEmpty (p : Property) (allowEmpty : Bool) : Property :=
  { p with allowEmpty }

/-- Sets the default value. -/
def withDefault (p : Property) (value : Json.Value) : Property :=
  { p with default := some value }

/-- Sets the sample value. -/
def withSample (p : Property) (value : Json.Value) : Property :=
  { p with sample := some value }

/-- Sets the values to choose from. -/
def withChoices (p : Property) (choices : List Json.Value) : Property :=
  { p with choices }

/-- Sets the bounds of the length. -/
def withLength (p : Property) (min max : UInt64) : Property :=
  { p with minLength := some min, maxLength := some max }

/-- Sets the bounds of the value. -/
def withRange (p : Property) (min max : Int64) : Property :=
  { p with minimum := some min, maximum := some max }

end Property

/-- A definition as it is given. -/
structure Definition where
  name : Text := []
  description : Text := []
  /-- the names of the parameters -/
  parameters : List Text := []
  properties : List Property := []
  deriving Repr, Inhabited

namespace Definition

/-- A plain definition without properties. -/
def new (name description : Text) : Definition :=
  { name, description }

/-- Sets the parameters. -/
def withParameters (d : Definition) (parameters : List Text) : Definition :=
  { d with parameters }

/-- Sets the properties. -/
def withProperties (d : Definition) (properties : List Property) : Definition :=
  { d with properties }

/-- Adds properties at the end. -/
def addProperties (d : Definition) (properties : List Property) : Definition :=
  { d with properties := d.properties ++ properties }

/-- True of a definition with parameters. -/
def isTemplate (d : Definition) : Bool :=
  !d.parameters.isEmpty

end Definition

/-- A definition without parameters, as expansion puts it out. -/
structure ConcreteDefinition where
  name : Text := []
  description : Text := []
  properties : List Property := []
  deriving Repr, Inhabited

/-- A definition without its parameters. -/
def Definition.toConcrete (d : Definition) : ConcreteDefinition where
  name := d.name
  description := d.description
  properties := d.properties

namespace ConcreteDefinition

/-- The first property of that name. -/
def property? (d : ConcreteDefinition) (name : Text) : Option Property :=
  d.properties.find? fun p => p.name == name

/-- The line of a property in a listing. -/
def listProperty (p : Property) : Text :=
  "\n  ".toList ++ p.name ++ ": ".toList ++ p.type
    ++ if p.required then " (required)".toList else []

/-- The name and description of a definition, and below them a line for each property. -/
def listing (d : ConcreteDefinition) : Text :=
  d.name ++ (if d.description.isEmpty then [] else " -- ".toList ++ d.description)
    ++ d.properties.flatMap listProperty

end ConcreteDefinition

end ApiSchema
