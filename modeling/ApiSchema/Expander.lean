import ApiSchema.Registry
import ApiSchema.Template
import ApiSchema.TypeExpr.Parse

/-!
Expansion: the instances that type expressions ask for.

A type whose element is an object with arguments asks for an instance of the template of that
name. `Expander.extract` makes it, after everything that its properties ask for in turn, so an
instance stands behind its dependencies in the registry. An instance that is being made is
marked as in progress and is not begun again, which ends the recursion of templates that refer
to each other. When a type in the middle is wrong, the marks stay.

Arguments that grow at each step would ask for new instances forever, so the recursion has a
bound, and running into it is an outcome of its own.
-/

namespace ApiSchema

/-- Why an expansion stopped. -/
inductive Stop where
  | error (error : TypeError)
  /-- more instances were begun inside of each other than the bound allows -/
  | tooDeep
  deriving DecidableEq, Repr

/-- The state of an expansion. -/
structure Expander where
  templates : Dict Template
  registry : Registry
  /-- the names of the instances that are being made -/
  inProgress : List Text
  deriving Inhabited

namespace Expander

/-- Takes in one definition: a template is prepared, the last of a name counting; a plain
definition is registered. -/
def add (x : Expander) (d : Definition) : Except TypeError Expander :=
  if d.isTemplate then do
    return { x with templates := x.templates.insert d.name (← Template.prepare d) }
  else
    .ok { x with registry := x.registry.set d.toConcrete }

/-- The expander before anything is extracted. -/
def ofDefinitions (definitions : List Definition) : Except TypeError Expander :=
  definitions.foldlM add { templates := .empty, registry := .empty, inProgress := [] }

/-- The template and the arguments that a type asks for, if it asks for any. -/
def request (x : Expander) (type : Text) : Except TypeError (Option (Template × List Text)) := do
  match (← TypeExpr.parse type).element.asObject? with
  | none => return none
  | some (_, []) => return none
  | some (name, arguments) =>
    match x.templates.get? name with
    | none => .error (.unknownTemplate type name)
    | some template =>
      if arguments.length ≠ template.placeholders.length then
        .error (.arityMismatch type name template.placeholders.length arguments.length)
      else
        return some (template, arguments.map TypeExpr.name)

/-- True of the instances that are made or being made. -/
def isKnown (x : Expander) (name : Text) : Bool :=
  x.registry.contains name || x.inProgress.contains name

/-- Marks an instance as being made. -/
def begin (x : Expander) (name : Text) : Expander :=
  { x with inProgress := name :: x.inProgress }

/-- Registers an instance that was being made. -/
def complete (x : Expander) (d : ConcreteDefinition) : Expander :=
  { x with
    inProgress := x.inProgress.erase d.name
    registry := (x.registry.insertIfAbsent d).2 }

/-- Goes over the types of properties that are not names of registered definitions, until one
stops. -/
def visit (step : Expander → Text → Except Stop Unit × Expander) (x : Expander) :
    List Property → Except Stop Unit × Expander
  | [] => (.ok (), x)
  | p :: properties =>
    if x.registry.contains p.type then visit step x properties
    else match step x p.type with
      | (.ok (), y) => visit step y properties
      | stopped => stopped

/-- Makes the instance that a type asks for, and before it what that one asks for. At most
`depth` types are looked at inside of each other. -/
def extract : (depth : Nat) → Expander → Text → Except Stop Unit × Expander
  | 0, x, _ => (.error .tooDeep, x)
  | depth + 1, x, type =>
    match x.request type with
    | .error e => (.error (.error e), x)
    | .ok none => (.ok (), x)
    | .ok (some (template, arguments)) =>
      let name := template.instanceName arguments
      if x.isKnown name then (.ok (), x)
      else
        let definition := template.instantiate arguments
        match visit (extract depth) (x.begin name) definition.properties with
        | (.ok (), y) => (.ok (), y.complete definition)
        | stopped => stopped

/-- Extracts types one after the other until one stops. -/
def extractAll (depth : Nat) (x : Expander) : List Text → Except Stop Expander
  | [] => .ok x
  | type :: types =>
    match x.extract depth type with
    | (.ok (), y) => extractAll depth y types
    | (.error stop, _) => .error stop

end Expander

/-- The plain definitions, and after them the instances that types ask for, each behind its
dependencies. -/
def expandAll (depth : Nat) (definitions : List Definition) (types : List Text) :
    Except Stop (List ConcreteDefinition) := do
  let x ← (Expander.ofDefinitions definitions).mapError Stop.error
  return (← x.extractAll depth types).registry.definitions

end ApiSchema
