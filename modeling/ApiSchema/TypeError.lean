import ApiSchema.Decimal.Digits

/-!
What can be wrong with a type expression or with the definitions that it refers to, and the
message for each cause. Every cause carries the text that it blames.
-/

namespace ApiSchema

/-- Why a text is no type expression. -/
inductive Malformed where
  /-- nothing is written -/
  | empty
  /-- a name has a character that names do not have, or none at all -/
  | badIdentifier
  /-- what follows `#` has a character that formats do not have -/
  | badFormat
  /-- the brackets of an argument list do not pair up -/
  | unbalanced
  /-- a blank stands before `[]` -/
  | blankBeforeArray
  /-- the argument list holds no argument -/
  | noArguments
  /-- arguments are given to a primitive, to `array` or to `object` -/
  | argumentsOnReserved
  /-- a format is given to `array` or `object` -/
  | formatOnMeta
  /-- a format is given to a name that is no primitive -/
  | formatOnObject
  /-- `array` or `object` stands alone -/
  | bareMeta
  deriving DecidableEq, Repr

/-- The wording of a reason. -/
def Malformed.message : Malformed → Text
  | .empty => "empty type name".toList
  | .badIdentifier => "malformed identifier".toList
  | .badFormat => "malformed format suffix".toList
  | .unbalanced => "unbalanced generic brackets".toList
  | .blankBeforeArray => "whitespace before `[]`".toList
  | .noArguments => "generic argument list is empty".toList
  | .argumentsOnReserved => "generics cannot be applied to a primitive or meta type".toList
  | .formatOnMeta => "array and object take no format suffix".toList
  | .formatOnObject => "format suffix on a non-primitive type".toList
  | .bareMeta => "array and object cannot be used bare".toList

/-- Why a type expression is refused, or cannot be expanded. -/
inductive TypeError where
  /-- the text is no type expression -/
  | malformed (type : Text) (reason : Malformed)
  /-- the type gives arguments to a name that is no template's -/
  | unknownTemplate (type name : Text)
  /-- the type gives a template more or fewer arguments than it has parameters -/
  | arityMismatch (type name : Text) (expected found : Nat)
  /-- a template has a parameter that is no identifier -/
  | badParameter (definition parameter : Text)
  deriving DecidableEq, Repr

/-- The message for an error. -/
def TypeError.message : TypeError → Text
  | .malformed type reason =>
    "invalid type ".toList ++ type.ticked ++ ": ".toList ++ reason.message
  | .unknownTemplate type name =>
    "invalid type ".toList ++ type.ticked ++ ": no generic definition named ".toList ++ name.ticked
  | .arityMismatch type name expected found =>
    "invalid type ".toList ++ type.ticked ++ ": ".toList ++ name.ticked ++ " expects ".toList
      ++ digits expected ++ " generic argument(s), found ".toList ++ digits found
  | .badParameter definition parameter =>
    "invalid generic type ".toList ++ parameter.ticked ++ " in definition ".toList
      ++ definition.ticked

end ApiSchema
