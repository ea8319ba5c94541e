import ApiSchema.Definition.Basic
import ApiSchema.Json.Record

/-!
Definitions in JSON.

Every field may be missing except in a concrete definition. The conditions of a property are
written only where they are set.
-/

namespace ApiSchema

open Json (Codec Field Record)

/-- The form of properties. -/
def Property.record : Record Property where
  name := "Property"
  initial := {}
  fields := [
    .always "name" .string name fun name p => { p with name },
    .always "type" .string type fun type p => { p with type },
    .always "required" .boolean required fun required p => { p with required },
    .always "desc" .string description fun description p => { p with description },
    .always "allowEmpty" .boolean allowEmpty fun allowEmpty p => { p with allowEmpty },
    .ifSome "default" .value Property.default fun default p => { p with default },
    .ifSome "example" .value sample fun sample p => { p with sample },
    .ifNonempty "enum" .value choices fun choices p => { p with choices },
    .ifSome "minLength" .natural64 minLength fun minLength p => { p with minLength },
    .ifSome "maxLength" .natural64 maxLength fun maxLength p => { p with maxLength },
    .ifSome "minimum" .integer64 minimum fun minimum p => { p with minimum },
    .ifSome "maximum" .integer64 maximum fun maximum p => { p with maximum }]

/-- Properties in JSON. -/
def Property.codec : Codec Property :=
  Property.record.codec

/-- The form of definitions. -/
def Definition.record : Record Definition where
  name := "Definition"
  initial := {}
  fields := [
    .always "name" .string name fun name d => { d with name },
    .always "desc" .string description fun description d => { d with description },
    .ifNonempty "generics" .string parameters fun parameters d => { d with parameters },
    .always "properties" (.list Property.codec) properties fun properties d =>
      { d with properties }]

/-- Definitions in JSON. -/
def Definition.codec : Codec Definition :=
  Definition.record.codec

/-- The form of concrete definitions. -/
def ConcreteDefinition.record : Record ConcreteDefinition where
  name := "ConcreteDefinition"
  initial := {}
  fields := [
    .always "name" .string name fun name d => { d with name },
    .always "desc" .string description fun description d => { d with description },
    .always "properties" (.list Property.codec) properties fun properties d =>
      { d with properties }]
  complete := true

/-- Concrete definitions in JSON. -/
def ConcreteDefinition.codec : Codec ConcreteDefinition :=
  ConcreteDefinition.record.codec

end ApiSchema
