import ApiSchema.Definition.Basic
import ApiSchema.Dict

/-!
The registry: concrete definitions by name, in the order in which the names came in.
-/

namespace ApiSchema

/-- Concrete definitions by their names. -/
abbrev Registry := Dict ConcreteDefinition

namespace Registry

/-- Puts a definition under its name, in the place of one that is there. -/
def set (r : Registry) (d : ConcreteDefinition) : Registry :=
  r.insert d.name d

/-- Puts a definition under its name unless one is there, and tells whether it did. -/
def insertIfAbsent (r : Registry) (d : ConcreteDefinition) : Bool × Registry :=
  if r.contains d.name then (false, r) else (true, r.insert d.name d)

/-- The definitions in order. -/
def definitions (r : Registry) : List ConcreteDefinition :=
  r.values

end Registry

end ApiSchema
