import ApiSchema.Json.Value
import ApiSchema.Text.Quoted

/-!
The compact text of a JSON value: no blanks, and in strings an escape only where one is needed,
that is for quotes, backslashes and control characters.
-/

namespace ApiSchema.Json

/-- One character of a string. -/
def escapeChar (c : Char) : Text :=
  if c = '"' then ['\\', '"']
  else if c = '\\' then ['\\', '\\']
  else if c = '\x08' then ['\\', 'b']
  else if c = '\t' then ['\\', 't']
  else if c = '\n' then ['\\', 'n']
  else if c = '\x0c' then ['\\', 'f']
  else if c = '\r' then ['\\', 'r']
  else if c.toNat < 0x20 then
    ['\\', 'u', '0', '0', hexChar (c.toNat / 16), hexChar (c.toNat % 16)]
  else [c]

/-- A string between its quotes. -/
def printString (text : Text) : Text :=
  '"' :: text.flatMap escapeChar ++ ['"']

/-- Parts with a comma between neighbours. -/
def commaSeparated : List Text → Text
  | [] => []
  | [part] => part
  | part :: parts => part ++ ',' :: commaSeparated parts

namespace Value

mutual

/-- The compact text of a value. -/
def print : Value → Text
  | null => "null".toList
  | boolean true => "true".toList
  | boolean false => "false".toList
  | integer n => signedDigits n.val
  | float x => floatLayout.write x
  | string text => printString text
  | array items => '[' :: commaSeparated (printItems items) ++ [']']
  | object members => '{' :: commaSeparated (printMembers members) ++ ['}']
termination_by structural value => value

/-- The texts of the items of an array. -/
def printItems : List Value → List Text
  | [] => []
  | item :: items => print item :: printItems items
termination_by structural items => items

/-- The texts of the members of an object. -/
def printMembers : List (Text × Value) → List Text
  | [] => []
  | member :: members => printMember member :: printMembers members
termination_by structural members => members

/-- The text of one member. -/
def printMember : Text × Value → Text
  | (key, value) => printString key ++ ':' :: print value
termination_by structural member => member

end

end Value

end ApiSchema.Json
