import ApiSchema.Json.Value
import ApiSchema.Text.Quoted

/-!
What can be wrong in a JSON text, the place where it is, and the message for both.
-/

namespace ApiSchema.Json

/-- What stands where something else was expected. -/
inductive Found where
  | null
  | boolean (b : Bool)
  | integer (n : Int)
  | float (x : Binary64)
  | string (text : Text)
  | sequence
  | map
  deriving DecidableEq, Repr

/-- What was expected. -/
inductive Expected where
  | string
  | boolean
  | sequence
  | map
  | natural16
  | natural64
  | integer64
  | record (name : Text)
  deriving DecidableEq, Repr

/-- What is wrong at a place. -/
inductive Fault where
  /-- the text ends inside of a list -/
  | endOfList
  /-- the text ends inside of an object -/
  | endOfObject
  /-- the text ends inside of a string -/
  | endOfString
  /-- the text ends where a value should stand, or inside of one -/
  | endOfValue
  | expectedColon
  | expectedListCommaOrEnd
  | expectedObjectCommaOrEnd
  /-- a word is not `null`, `true` or `false` -/
  | expectedWord
  | expectedValue
  | invalidEscape
  | invalidNumber
  | numberOutOfRange
  | loneSurrogate
  /-- the second half of a surrogate pair does not follow the first -/
  | endOfEscape
  | controlCharacter
  | keyNotString
  | trailingComma
  | trailingCharacters
  | nestedTooDeep
  /-- a value is of another kind than expected -/
  | wrongKind (found : Found) (expected : Expected)
  /-- an integer is out of the expected range -/
  | wrongValue (found : Int) (expected : Expected)
  /-- a record in list form has too few items -/
  | wrongLength (count : Nat) (record : Text) (size : Nat)
  | missingField (key : Text)
  | duplicateField (key : Text)
  deriving DecidableEq, Repr

/-- One step on the way from the whole value to a part of it. -/
inductive Step where
  | member (key : Text)
  | item (index : Nat)
  /-- a member whose key cannot be read -/
  | unreadMember
  deriving DecidableEq, Repr

/-- A fault and the way to its place. -/
structure Failure where
  place : List Step
  fault : Fault
  deriving DecidableEq, Repr

/-- A fault of the value itself. -/
def Fault.here (fault : Fault) : Failure where
  place := []
  fault := fault

/-- A failure of a part, seen from the whole. -/
def Failure.under (step : Step) (failure : Failure) : Failure where
  place := step :: failure.place
  fault := failure.fault

/-! ## Messages -/

/-- How a message names what was found. -/
def Found.describe : Found → Text
  | null => "null".toList
  | boolean true => "boolean `true`".toList
  | boolean false => "boolean `false`".toList
  | integer n => "integer ".toList ++ (signedDigits n).ticked
  | float x => "floating point ".toList ++ (floatLayout.write x).ticked
  | string text => "string ".toList ++ text.quoted
  | sequence => "sequence".toList
  | map => "map".toList

/-- How a message names what was expected. -/
def Expected.describe : Expected → Text
  | string => "a string".toList
  | boolean => "a boolean".toList
  | sequence => "a sequence".toList
  | map => "a map".toList
  | natural16 => "u16".toList
  | natural64 => "u64".toList
  | integer64 => "i64".toList
  | record name => "struct ".toList ++ name

/-- The message for a fault. -/
def Fault.message : Fault → Text
  | endOfList => "EOF while parsing a list".toList
  | endOfObject => "EOF while parsing an object".toList
  | endOfString => "EOF while parsing a string".toList
  | endOfValue => "EOF while parsing a value".toList
  | expectedColon => "expected `:`".toList
  | expectedListCommaOrEnd => "expected `,` or `]`".toList
  | expectedObjectCommaOrEnd => "expected `,` or `\x7d`".toList
  | expectedWord => "expected ident".toList
  | expectedValue => "expected value".toList
  | invalidEscape => "invalid escape".toList
  | invalidNumber => "invalid number".toList
  | numberOutOfRange => "number out of range".toList
  | loneSurrogate => "lone leading surrogate in hex escape".toList
  | endOfEscape => "unexpected end of hex escape".toList
  | controlCharacter =>
    "control character (\\u0000-\\u001F) found while parsing a string".toList
  | keyNotString => "key must be a string".toList
  | trailingComma => "trailing comma".toList
  | trailingCharacters => "trailing characters".toList
  | nestedTooDeep => "recursion limit exceeded".toList
  | wrongKind found expected =>
    "invalid type: ".toList ++ found.describe ++ ", expected ".toList ++ expected.describe
  | wrongValue found expected =>
    "invalid value: ".toList ++ (Found.integer found).describe ++ ", expected ".toList
      ++ expected.describe
  | wrongLength count record size =>
    "invalid length ".toList ++ digits count ++ ", expected struct ".toList ++ record
      ++ " with ".toList ++ digits size ++ " elements".toList
  | missingField key => "missing field ".toList ++ key.ticked
  | duplicateField key => "duplicate field ".toList ++ key.ticked

/-- A step as it stands in a place. A dot goes in front of all but items and the first step. -/
def Step.print (isFirst : Bool) : Step → Text
  | member key => if isFirst then key else '.' :: key
  | item index => '[' :: digits index ++ [']']
  | unreadMember => if isFirst then ['?'] else ['.', '?']

/-- The way to a place; a single dot for the whole value. -/
def printPlace : List Step → Text
  | [] => ['.']
  | step :: steps => step.print true ++ steps.flatMap (Step.print false)

/-- The message for a failure. -/
def Failure.message (failure : Failure) : Text :=
  "at JSON path ".toList ++ printPlace failure.place ++ " → ".toList ++ failure.fault.message

end ApiSchema.Json
