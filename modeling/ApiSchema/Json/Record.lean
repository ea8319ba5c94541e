import ApiSchema.Json.Printer
import ApiSchema.Json.Reader

/-!
Codecs, and the form of records in JSON.

A `Codec` is a reader together with the value that is written. The codec of a record comes from
one list of fields: a field has a key, reads an update of the record, and writes a value unless
it is left out. A record is written as an object with its fields in order. It is read from an
object, with unknown members skipped and missing ones left at their initial values, and also
from an array of its fields in order.
-/

namespace ApiSchema.Json

/-- How values of a type are read and written. -/
structure Codec (α : Type) where
  read : Reader α
  encode : α → Value

namespace Codec

/-- Strings. -/
def string : Codec Text where
  read := Reader.string
  encode := .string

/-- Truth values. -/
def boolean : Codec Bool where
  read := Reader.boolean
  encode := .boolean

/-- Unsigned words of 16 bits. -/
def natural16 : Codec UInt16 where
  read := Reader.natural16
  encode n := .integer (.ofUInt64 n.toUInt64)

/-- Unsigned words of 64 bits. -/
def natural64 : Codec UInt64 where
  read := Reader.natural64
  encode n := .integer (.ofUInt64 n)

/-- Signed words of 64 bits. -/
def integer64 : Codec Int64 where
  read := Reader.integer64
  encode n := .integer (.ofInt64 n)

/-- Values of any kind. -/
def value : Codec Value where
  read := Reader.value
  encode := id

/-- A value that may be absent, which is written `null`. -/
def option {α : Type} (codec : Codec α) : Codec (Option α) where
  read := codec.read.option
  encode
    | some a => codec.encode a
    | none => .null

/-- Arrays of values of one type. -/
def list {α : Type} (codec : Codec α) : Codec (List α) where
  read := codec.read.list
  encode items := .array (items.map codec.encode)

/-- Objects whose members are of one type. -/
def dict {α : Type} (codec : Codec α) : Codec (Dict α) where
  read := codec.read.dict
  encode d := .object (d.entries.map fun (key, a) => (key, codec.encode a))

/-- Reads a value from the start of a text. What follows it is not looked at. -/
def decode {α : Type} (codec : Codec α) (text : Text) : Except Failure α :=
  (codec.read text.length nestingLimit text).map Prod.fst

/-- The compact text of a value. -/
def print {α : Type} (codec : Codec α) (a : α) : Text :=
  (codec.encode a).print

end Codec

/-! ## Records -/

/-- A field of records of a type. -/
structure Field (σ : Type) where
  key : Text
  /-- reads what the field does to a record -/
  read : Reader (σ → σ)
  /-- the value that is written, if any -/
  encode : σ → Option Value

namespace Field

/-- A field that is written only where `shown` holds. -/
def shownIf {σ α : Type} (shown : α → Bool) (key : String) (codec : Codec α) (get : σ → α)
    (set : α → σ → σ) : Field σ where
  key := key.toList
  read values nesting text :=
    (codec.read values nesting text).map fun (a, rest) => (set a, rest)
  encode s := if shown (get s) then some (codec.encode (get s)) else none

/-- A field that is always written. -/
def always {σ α : Type} (key : String) (codec : Codec α) (get : σ → α) (set : α → σ → σ) :
    Field σ :=
  shownIf (fun _ => true) key codec get set

/-- A field that is left out if it has no value. -/
def ifSome {σ α : Type} (key : String) (codec : Codec α) (get : σ → Option α)
    (set : Option α → σ → σ) : Field σ :=
  shownIf Option.isSome key codec.option get set

/-- A field that is left out if it is an empty list. -/
def ifNonempty {σ α : Type} (key : String) (codec : Codec α) (get : σ → List α)
    (set : List α → σ → σ) : Field σ :=
  shownIf (fun items => !items.isEmpty) key codec.list get set

end Field

/-- The form of records of a type. -/
structure Record (σ : Type) where
  /-- the name of the type in messages -/
  name : String
  /-- the record before any field is read -/
  initial : σ
  fields : List (Field σ)
  /-- whether every field has to be there -/
  complete : Bool := false

namespace Record

variable {σ : Type}

/-- The field with that key. -/
def field? (record : Record σ) (key : Text) : Option (Field σ) :=
  record.fields.find? fun field => field.key == key

/-- Reads one member of a record in object form. The state holds the keys that were read. -/
def readField (record : Record σ) (values nesting : Nat) (state : List Text × σ)
    (key text : Text) : Except Failure ((List Text × σ) × Text) :=
  match record.field? key with
  | none => do
    let skip (rest : Text) := (here (skipValue values rest)).map fun rest => ((), rest)
    let (_, rest) ← readMember skip key text
    return (state, rest)
  | some field =>
    if key ∈ state.1 then .error (Fault.duplicateField key).here
    else do
      let (update, rest) ← readMember (field.read values nesting) key text
      return ((key :: state.1, update state.2), rest)

/-- The first field that was not read though every field has to be there. -/
def missing? (record : Record σ) (read : List Text) : Option Text :=
  if record.complete then (record.fields.map Field.key).find? (· ∉ read) else none

/-- Reads a record in object form, after its opening bracket. -/
def readObject (record : Record σ) (values nesting : Nat) (text : Text) :
    Except Failure (σ × Text) := do
  let (state, rest) ←
    foldMembers (record.readField values nesting) (values + 1) true ([], record.initial) text
  match record.missing? state.1 with
  | some key => .error (Fault.missingField key).here
  | none => return (state.2, ← here (endObject rest))

/-- Reads the fields of a record in list form, from the one at `index` on. -/
def readPositions (record : Record σ) (values nesting : Nat) :
    List (Field σ) → (index : Nat) → σ → Text → Except Failure (σ × Text)
  | [], _, state, text => .ok (state, text)
  | field :: fields, index, state, text => do
    let (more, rest) ← here (nextItem (index == 0) text)
    if more then
      let (update, rest) ←
        (field.read values nesting rest).mapError (Failure.under (.item index))
      readPositions record values nesting fields (index + 1) (update state) rest
    else if record.complete then
      .error (Fault.wrongLength index record.name.toList record.fields.length).here
    else
      return (state, rest)

/-- Reads a record in list form, after its opening bracket. -/
def readList (record : Record σ) (values nesting : Nat) (text : Text) :
    Except Failure (σ × Text) := do
  let (state, rest) ← record.readPositions values nesting record.fields 0 record.initial text
  return (state, ← here (endList rest))

/-- Reads a record. -/
def read (record : Record σ) : Reader σ := fun values nesting text =>
  match skipSpaces text with
  | '[' :: rest =>
    match nesting with
    | 0 => .error Fault.nestedTooDeep.here
    | nesting + 1 => record.readList values nesting rest
  | '{' :: rest =>
    match nesting with
    | 0 => .error Fault.nestedTooDeep.here
    | nesting + 1 => record.readObject values nesting rest
  | text => .error (mismatch (.record record.name.toList) text).here

/-- The members that a record is written with. -/
def members (record : Record σ) (s : σ) : List (Text × Value) :=
  record.fields.filterMap fun field => (field.encode s).map (field.key, ·)

/-- The codec of records of a type. -/
def codec (record : Record σ) : Codec σ where
  read := record.read
  encode s := .object (record.members s)

end Record

end ApiSchema.Json
