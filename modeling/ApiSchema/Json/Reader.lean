import ApiSchema.Dict
import ApiSchema.Json.Skip

/-!
Readers of typed values from JSON text.

A reader works on the text itself, from left to right, so the first fault in the text is the one
that is reported, with the way to its place. `values` bounds the number of values in the text; its
length will do. `nesting` is how many brackets may still be opened inside of each other.

Arrays and objects share their loops: `readItems` reads the items of an array, and `foldMembers`
goes over the members of an object.
-/

namespace ApiSchema.Json

/-- Reads a value of some type, and gives what is left of the text. -/
abbrev Reader (α : Type) :=
  (values nesting : Nat) → Text → Except Failure (α × Text)

/-- A scan at the place of the value itself. -/
def here {α : Type} (scan : Except Fault α) : Except Failure α :=
  scan.mapError Fault.here

/-- How many brackets may be open at once. -/
def nestingLimit : Nat := 127

/-! ## Values of another kind -/

/-- What a number is in a message. -/
def Number.found : Number → Found
  | .integer n => .integer n.val
  | .float x => .float x

/-- The fault when the text goes on with a value of another kind than expected. The value is
read first if it is a scalar, and what is wrong in it counts more. -/
def mismatch (expected : Expected) (text : Text) : Fault :=
  let wrong {α : Type} (scan : Except Fault α) (found : α → Found) : Fault :=
    match scan with
    | .ok a => .wrongKind (found a) expected
    | .error fault => fault
  match text with
  | [] => .endOfValue
  | c :: rest =>
    if c = 'n' then wrong (scanWord "ull".toList rest) fun _ => .null
    else if c = 't' then wrong (scanWord "rue".toList rest) fun _ => .boolean true
    else if c = 'f' then wrong (scanWord "alse".toList rest) fun _ => .boolean false
    else if c = '-' then wrong (scanNumber true rest) fun read => read.1.found
    else if c.isDigit then wrong (scanNumber false text) fun read => read.1.found
    else if c = '"' then wrong (scanString rest) fun read => .string read.1
    else if c = '[' then .wrongKind .sequence expected
    else if c = '{' then .wrongKind .map expected
    else .expectedValue

/-! ## Scalars -/

/-- Reads a string. -/
def Reader.string : Reader Text := fun _ _ text =>
  match skipSpaces text with
  | '"' :: rest => here (scanString rest)
  | text => .error (mismatch .string text).here

/-- Reads a truth value. -/
def Reader.boolean : Reader Bool := fun _ _ text =>
  match skipSpaces text with
  | 't' :: rest => here ((scanWord "rue".toList rest).map (true, ·))
  | 'f' :: rest => here ((scanWord "alse".toList rest).map (false, ·))
  | text => .error (mismatch .boolean text).here

/-- Reads a number, and makes a value of it or says what is wrong with it. -/
def Reader.number {α : Type} (expected : Expected) (make : Int → Option α) : Reader α :=
  fun _ _ text =>
    let finish (scan : Except Fault (Number × Text)) : Except Failure (α × Text) :=
      match scan with
      | .error fault => .error fault.here
      | .ok (.float x, _) => .error (Fault.wrongKind (.float x) expected).here
      | .ok (.integer n, rest) =>
        match make n.val with
        | some a => .ok (a, rest)
        | none => .error (Fault.wrongValue n.val expected).here
    match skipSpaces text with
    | [] => .error Fault.endOfValue.here
    | c :: rest =>
      if c = '-' then finish (scanNumber true rest)
      else if c.isDigit then finish (scanNumber false (c :: rest))
      else .error (mismatch expected (c :: rest)).here

/-- Reads an unsigned word of 16 bits. -/
def Reader.natural16 : Reader UInt16 :=
  Reader.number .natural16 fun n =>
    if 0 ≤ n ∧ n < UInt16.size then some (UInt16.ofNat n.toNat) else none

/-- Reads an unsigned word of 64 bits. -/
def Reader.natural64 : Reader UInt64 :=
  Reader.number .natural64 fun n =>
    if 0 ≤ n ∧ n < UInt64.size then some (UInt64.ofNat n.toNat) else none

/-- Reads a signed word of 64 bits. -/
def Reader.integer64 : Reader Int64 :=
  Reader.number .integer64 fun n =>
    if Int64.minValue.toInt ≤ n ∧ n ≤ Int64.maxValue.toInt then some (Int64.ofInt n) else none

/-- Reads `null` as nothing, and any other value as it is. -/
def Reader.option {α : Type} (read : Reader α) : Reader (Option α) := fun values nesting text =>
  match skipSpaces text with
  | 'n' :: rest => here ((scanWord "ull".toList rest).map (none, ·))
  | text => (read values nesting text).map fun (a, rest) => (some a, rest)

/-! ## Arrays -/

/-- Steps to the next item of an array: tells whether there is one, and where it starts. -/
def nextItem (isFirst : Bool) (text : Text) : Except Fault (Bool × Text) :=
  match skipSpaces text with
  | [] => .error .endOfList
  | c :: rest =>
    if c = ']' then .ok (false, c :: rest)
    else if isFirst then .ok (true, c :: rest)
    else if c = ',' then
      match skipSpaces rest with
      | [] => .error .endOfValue
      | d :: rest => if d = ']' then .error .trailingComma else .ok (true, d :: rest)
    else .error .expectedListCommaOrEnd

/-- Passes over the end of an array. -/
def endList (text : Text) : Except Fault Text :=
  match skipSpaces text with
  | [] => .error .endOfList
  | c :: rest =>
    if c = ']' then .ok rest
    else if c = ',' then
      if (skipSpaces rest).head? = some ']' then .error .trailingComma
      else .error .trailingCharacters
    else .error .trailingCharacters

/-- Reads the items of an array from the one at `index` on. -/
def readItems {α : Type} (read : Text → Except Failure (α × Text)) :
    (values index : Nat) → Text → Except Failure (List α × Text)
  | 0, _, _ => .error Fault.endOfList.here
  | values + 1, index, text => do
    let (more, rest) ← here (nextItem (index == 0) text)
    if more then
      let (item, rest) ← (read rest).mapError (Failure.under (.item index))
      let (items, rest) ← readItems read values (index + 1) rest
      return (item :: items, rest)
    else
      return ([], rest)

/-- Reads an array, after its opening bracket. -/
def readList {α : Type} (read : Text → Except Failure (α × Text)) (values : Nat) (text : Text) :
    Except Failure (List α × Text) := do
  let (items, rest) ← readItems read (values + 1) 0 text
  return (items, ← here (endList rest))

/-- Reads an array. -/
def Reader.list {α : Type} (read : Reader α) : Reader (List α) := fun values nesting text =>
  match skipSpaces text with
  | '[' :: rest =>
    match nesting with
    | 0 => .error Fault.nestedTooDeep.here
    | nesting + 1 => readList (read values nesting) values rest
  | text => .error (mismatch .sequence text).here

/-! ## Objects -/

/-- Steps to the next key of an object: tells whether there is one, and where its text starts. -/
def nextKey (isFirst : Bool) (text : Text) : Except Fault (Bool × Text) :=
  match skipSpaces text with
  | [] => .error .endOfObject
  | c :: rest =>
    if c = '}' then .ok (false, c :: rest)
    else if isFirst then if c = '"' then .ok (true, rest) else .error .keyNotString
    else if c = ',' then
      match skipSpaces rest with
      | [] => .error .endOfValue
      | d :: rest =>
        if d = '"' then .ok (true, rest)
        else if d = '}' then .error .trailingComma
        else .error .keyNotString
    else .error .expectedObjectCommaOrEnd

/-- Passes over the colon between a key and its value. -/
def skipColon (text : Text) : Except Fault Text :=
  match skipSpaces text with
  | [] => .error .endOfObject
  | c :: rest => if c = ':' then .ok rest else .error .expectedColon

/-- Passes over the end of an object. -/
def endObject (text : Text) : Except Fault Text :=
  match skipSpaces text with
  | [] => .error .endOfObject
  | c :: rest =>
    if c = '}' then .ok rest
    else if c = ',' then .error .trailingComma
    else .error .trailingCharacters

/-- Goes over the members of an object. `member` is given the key and the text from the colon
on. What is wrong before a key is known is at a place without a name. -/
def foldMembers {σ : Type} (member : σ → Text → Text → Except Failure (σ × Text)) :
    (values : Nat) → (isFirst : Bool) → σ → Text → Except Failure (σ × Text)
  | 0, _, _, _ => .error Fault.endOfObject.here
  | values + 1, isFirst, state, text => do
    let unread {α : Type} (scan : Except Fault α) : Except Failure α :=
      (here scan).mapError (Failure.under .unreadMember)
    let (more, rest) ← unread (nextKey isFirst text)
    if more then
      let (key, rest) ← unread (scanString rest)
      let (state, rest) ← member state key rest
      foldMembers member values false state rest
    else
      return (state, rest)

/-- Reads the value of a member, from the colon on. -/
def readMember {α : Type} (read : Text → Except Failure (α × Text)) (key text : Text) :
    Except Failure (α × Text) := do
  let rest ← here (skipColon text)
  (read rest).mapError (Failure.under (.member key))

/-- Reads the members of an object after its opening bracket. A repeated key keeps its first
place and takes its last value. -/
def readEntries {α : Type} (read : Text → Except Failure (α × Text)) (values : Nat)
    (text : Text) : Except Failure (List (Text × α) × Text) := do
  let member (entries : List (Text × α)) (key text : Text) := do
    let (value, rest) ← readMember read key text
    return (upsert key value entries, rest)
  let (entries, rest) ← foldMembers member (values + 1) true [] text
  return (entries, ← here (endObject rest))

/-- Reads an object whose members are all of one type. -/
def Reader.dict {α : Type} (read : Reader α) : Reader (Dict α) := fun values nesting text =>
  match skipSpaces text with
  | '{' :: rest =>
    match nesting with
    | 0 => .error Fault.nestedTooDeep.here
    | nesting + 1 => do
      let (entries, rest) ← readEntries (read values nesting) values rest
      return (Dict.ofList entries, rest)
  | text => .error (mismatch .map text).here

/-! ## Any value -/

/-- The value of a number. -/
def Number.toValue : Number → Value
  | .integer n => .integer n
  | .float x => .float x

/-- Reads a value of any kind. -/
def readValue (values : Nat) (nesting : Nat) (text : Text) : Except Failure (Value × Text) :=
  match skipSpaces text with
  | [] => .error Fault.endOfValue.here
  | c :: rest =>
    if c = 'n' then here ((scanWord "ull".toList rest).map (.null, ·))
    else if c = 't' then here ((scanWord "rue".toList rest).map (.boolean true, ·))
    else if c = 'f' then here ((scanWord "alse".toList rest).map (.boolean false, ·))
    else if c = '-' then here ((scanNumber true rest).map fun (n, rest) => (n.toValue, rest))
    else if c.isDigit then
      here ((scanNumber false (c :: rest)).map fun (n, rest) => (n.toValue, rest))
    else if c = '"' then here ((scanString rest).map fun (s, rest) => (.string s, rest))
    else if c = '[' then
      match nesting with
      | 0 => .error Fault.nestedTooDeep.here
      | nesting + 1 =>
        (readList (readValue values nesting) values rest).map fun (items, rest) =>
          (.array items, rest)
    else if c = '{' then
      match nesting with
      | 0 => .error Fault.nestedTooDeep.here
      | nesting + 1 =>
        (readEntries (readValue values nesting) values rest).map fun (members, rest) =>
          (.object members, rest)
    else .error Fault.expectedValue.here

/-- Reads a value of any kind. -/
def Reader.value : Reader Value :=
  readValue

end ApiSchema.Json
