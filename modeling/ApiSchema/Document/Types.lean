import ApiSchema.Document.Basic
import ApiSchema.Expander

/-!
The type expressions of a document: which there are, whether all are well formed, and what they
ask for.

`Document.checkTypes` looks at every type, those of templates too, so that `Document.expand`
reports a malformed type before anything else.
-/

namespace ApiSchema

namespace Operation

/-- The types of the parameters, then the types of the responses that have a body. -/
def types (o : Operation) : List Text :=
  o.parameters.map Parameter.type
    ++ (o.responses.map Response.type).filter fun type => !(Text.trim type).isEmpty

end Operation

namespace Definition

/-- The types of the properties. -/
def types (d : Definition) : List Text :=
  d.properties.map Property.type

end Definition

namespace Document

/-- The definitions without parameters. -/
def plainDefinitions (d : Document) : List Definition :=
  d.definitions.filter (!·.isTemplate)

/-- The definitions with parameters. -/
def templates (d : Document) : List Definition :=
  d.definitions.filter Definition.isTemplate

/-- The types outside of templates: those of operations, then those of plain definitions. -/
def referencedTypes (d : Document) : List Text :=
  d.operations.flatMap Operation.types ++ d.plainDefinitions.flatMap Definition.types

/-- Checks every type of a document. The first that is malformed is the error. -/
def checkTypes (d : Document) : Except TypeError Unit := do
  d.referencedTypes.forM TypeExpr.check
  (d.templates.flatMap Definition.types).forM TypeExpr.check

/-- Checks a document, and expands its definitions by the types that stand outside of
templates. -/
def expand (depth : Nat) (d : Document) : Except Stop (List ConcreteDefinition) := do
  d.checkTypes.mapError Stop.error
  expandAll depth d.definitions d.referencedTypes

end Document

end ApiSchema
