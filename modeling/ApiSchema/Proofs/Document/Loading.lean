import ApiSchema.Document.Codec
import ApiSchema.Proofs.Json.Rebuilding

/-!
# Documents are loaded as they were written

A document and every part of it is decoded from its compact text (`Part.decode_print`), with all its
fields, the order of its entries and the order of keys in the values that are only passed through.
One thing is lost: a default or a sample that is `null` is written as `null` and loaded as absent
(`Property.settled`). Values that are only passed through have to be free of floating-point numbers,
and nothing may be nested deeper than the loader goes.

Each part has one lemma, which names its fields in order, so that a field whose name, place or
condition differs between writing and reading has no proof.
-/

namespace ApiSchema

open Json (Codec Record Rebuilds)
open Json.Codec

/-! ## What is lost -/

/-- A `null` is nothing. -/
def dropNull : Option Json.Value → Option Json.Value
  | some .null => none
  | other => other

/-- The property without a default or a sample that is `null`. -/
def Property.settled (p : Property) : Property :=
  { p with default := dropNull p.default, sample := dropNull p.sample }

/-- The definition with settled properties. -/
def Definition.settled (d : Definition) : Definition :=
  { d with properties := d.properties.map Property.settled }

/-- The concrete definition with settled properties. -/
def ConcreteDefinition.settled (d : ConcreteDefinition) : ConcreteDefinition :=
  { d with properties := d.properties.map Property.settled }

/-- The document with settled definitions. -/
def Document.settled (d : Document) : Document :=
  { d with definitions := d.definitions.map Definition.settled }

/-! ## What is passed through -/

/-- The values that a property passes through. -/
def Property.passThrough (p : Property) : List Json.Value :=
  p.default.toList ++ p.sample.toList ++ p.choices

/-- The values that properties pass through. -/
def passThrough (properties : List Property) : List Json.Value :=
  properties.flatMap Property.passThrough

/-- A value without floating-point numbers in which each object has each key once. -/
def Json.Value.Exact (v : Json.Value) : Prop :=
  v.FloatFree ∧ v.Keyed

theorem reads_dropNull {o : Option Json.Value} (exact : ∀ v ∈ o, v.Exact) :
    Codec.value.option.Reads o (dropNull o) := by
  cases o with
  | none => exact reads_option_null rfl
  | some v =>
    obtain ⟨free, keyed⟩ := exact v rfl
    by_cases null : v = .null
    · rw [null]
      exact reads_option_null rfl
    · have kept : dropNull (some v) = some v := by
        unfold dropNull
        split
        · rename_i same
          exact absurd (Option.some.inj same) null
        · rfl
      rw [kept]
      exact (reads_value free keyed).option null

/-! ## The parts of a document -/

theorem License.reads (l : License) : License.record.codec.Reads l l :=
  Record.reads_codec (by decide) (fun complete => by cases complete) <|
    .always (reads_string _) <| .always (reads_string _) <| .nil _

theorem Contact.reads (c : Contact) : Contact.record.codec.Reads c c :=
  Record.reads_codec (by decide) (fun complete => by cases complete) <|
    .always (reads_string _) <| .always (reads_string _) <| .always (reads_string _) <| .nil _

theorem Info.reads (i : Info) : Info.record.codec.Reads i i :=
  Record.reads_codec (by decide) (fun complete => by cases complete) <|
    .always (reads_string _) <| .always (reads_string _) <| .always (reads_string _) <|
    .always (reads_string _) <| .always (Record.reads_option fun l _ => l.reads) <|
    .always (Record.reads_option fun c _ => c.reads) <| .nil _

theorem ExternalDocs.reads (e : ExternalDocs) : ExternalDocs.record.codec.Reads e e :=
  Record.reads_codec (by decide) (fun complete => by cases complete) <|
    .always (reads_string _) <| .always (reads_string _) <| .nil _

theorem Tag.reads (t : Tag) : Tag.record.codec.Reads t t :=
  Record.reads_codec (by decide) (fun complete => by cases complete) <|
    .always (reads_string _) <| .always (reads_string _) <|
    .always (Record.reads_option fun e _ => e.reads) <| .nil _

theorem Security.reads (s : Security) : Security.record.codec.Reads s s :=
  Record.reads_codec (by decide) (fun complete => by cases complete) <|
    .always (reads_string _) <| .always (reads_string _) <| .always (reads_string _) <|
    .always (reads_string _) <| .always (reads_string _) <| .always (reads_string _) <|
    .always (reads_string _) <| .always (reads_string _) <|
    .always (reads_dict fun text _ => reads_string text) <| .nil _

theorem DocumentOption.reads (o : DocumentOption) : DocumentOption.record.codec.Reads o o :=
  have texts {l : List Text} : Codec.string.list.Reads l l :=
    reads_list_self fun text _ => reads_string text
  have entries {d : Dict Text} : Codec.string.dict.Reads d d :=
    reads_dict fun text _ => reads_string text
  Record.reads_codec (by decide) (fun complete => by cases complete) <|
    .always texts <| .always texts <| .always texts <|
    .always (reads_list_self fun t _ => t.reads) <| .always (reads_list_self fun s _ => s.reads) <|
    .always (Record.reads_option fun e _ => e.reads) <| .always (reads_string _) <|
    .always entries <| .always entries <| .nil _

theorem Parameter.reads (p : Parameter) : Parameter.record.codec.Reads p p :=
  Record.reads_codec (by decide) (fun complete => by cases complete) <|
    .always (reads_string _) <| .always (reads_string _) <| .always (reads_string _) <|
    .always (reads_boolean _) <| .always (reads_string _) <| .nil _

theorem Response.reads (r : Response) : Response.record.codec.Reads r r :=
  Record.reads_codec (by decide) (fun complete => by cases complete) <|
    .always (reads_natural16 _) <| .always (reads_string _) <| .always (reads_string _) <| .nil _

theorem Operation.reads (o : Operation) : Operation.record.codec.Reads o o :=
  Record.reads_codec (by decide) (fun complete => by cases complete) <|
    .always (reads_string _) <| .always (reads_string _) <| .always (reads_string _) <|
    .always (reads_string _) <| .always (reads_list_self fun text _ => reads_string text) <|
    .always (reads_list_self fun p _ => p.reads) <|
    .always (reads_list_self fun r _ => r.reads) <| .nil _

/-! ## Definitions and documents -/

theorem Property.reads {p : Property} (exact : ∀ v ∈ p.passThrough, v.Exact) :
    Property.codec.Reads p p.settled := by
  have defaults : ∀ v ∈ p.default, v.Exact := fun v member => exact v <|
    List.mem_append_left _ (List.mem_append_left _ (Option.mem_toList.2 member))
  have samples : ∀ v ∈ p.sample, v.Exact := fun v member => exact v <|
    List.mem_append_left _ (List.mem_append_right _ (Option.mem_toList.2 member))
  have choices : Codec.value.list.Reads p.choices p.choices := reads_list_self fun v member =>
    have own := exact v (List.mem_append_right _ member)
    reads_value own.1 own.2
  have words {o : Option UInt64} : Codec.natural64.option.Reads o o :=
    reads_option fun n _ => ⟨reads_natural64 n, by simp [Codec.natural64]⟩
  have integers {o : Option Int64} : Codec.integer64.option.Reads o o :=
    reads_option fun n _ => ⟨reads_integer64 n, by simp [Codec.integer64]⟩
  exact Record.reads_codec (by decide) (fun complete => by cases complete) <|
    .always (reads_string _) <| .always (reads_string _) <| .always (reads_boolean _) <|
    .always (reads_string _) <| .always (reads_boolean _) <|
    .ifSome (fun _ => rfl) (reads_dropNull defaults) (fun absent => (congrArg dropNull absent).symm) <|
    .ifSome (fun _ => rfl) (reads_dropNull samples) (fun absent => (congrArg dropNull absent).symm) <|
    .ifNonempty (fun _ => rfl) choices Eq.symm <|
    .ifSome (fun _ => rfl) words Eq.symm <|
    .ifSome (fun _ => rfl) words Eq.symm <|
    .ifSome (fun _ => rfl) integers Eq.symm <|
    .ifSome (fun _ => rfl) integers Eq.symm <| .nil _

theorem reads_properties {properties : List Property}
    (exact : ∀ v ∈ passThrough properties, v.Exact) :
    Property.codec.list.Reads properties (properties.map Property.settled) :=
  reads_list_map fun p member => Property.reads fun v inside =>
    exact v (List.mem_flatMap.2 ⟨p, member, inside⟩)

theorem Definition.reads {d : Definition} (exact : ∀ v ∈ passThrough d.properties, v.Exact) :
    Definition.codec.Reads d d.settled :=
  Record.reads_codec (by decide) (fun complete => by cases complete) <|
    .always (reads_string _) <| .always (reads_string _) <|
    .ifNonempty (fun _ => rfl) (reads_list_self fun text _ => reads_string text)
      Eq.symm <|
    .always (reads_properties exact) <| .nil _

theorem ConcreteDefinition.reads {d : ConcreteDefinition}
    (exact : ∀ v ∈ passThrough d.properties, v.Exact) :
    ConcreteDefinition.codec.Reads d d.settled :=
  Record.reads_codec (by decide)
    (fun _ => List.forall_mem_cons.2 ⟨rfl, List.forall_mem_cons.2 ⟨rfl,
      List.forall_mem_singleton.2 rfl⟩⟩) <|
    .always (reads_string _) <| .always (reads_string _) <|
    .always (reads_properties exact) <| .nil _

theorem Document.reads {d : Document}
    (exact : ∀ v ∈ d.definitions.flatMap (passThrough ·.properties), v.Exact) :
    Document.codec.Reads d d.settled :=
  have definitions : Definition.codec.list.Reads d.definitions
      (d.definitions.map Definition.settled) :=
    reads_list_map fun e member => Definition.reads fun v inside =>
      exact v (List.mem_flatMap.2 ⟨e, member, inside⟩)
  Record.reads_codec (by decide) (fun complete => by cases complete) <|
    .always (reads_string _) <| .always (reads_string _) <|
    .always (Record.reads_option fun i _ => i.reads) <|
    .always (Record.reads_option fun o _ => o.reads) <|
    .always (reads_list_self fun o _ => o.reads) <| .always definitions <| .nil _

/-! ## Every part -/

/-- The kinds of records that a document consists of, and those that stand for themselves. -/
inductive Part where
  | document
  | info
  | license
  | contact
  | documentOption
  | tag
  | security
  | externalDocs
  | operation
  | parameter
  | response
  | definition
  | property
  | concreteDefinition

namespace Part

/-- The records of a kind. -/
def Carrier : Part → Type
  | document => Document
  | info => Info
  | license => License
  | contact => Contact
  | documentOption => DocumentOption
  | tag => Tag
  | security => Security
  | externalDocs => ExternalDocs
  | operation => Operation
  | parameter => Parameter
  | response => Response
  | definition => Definition
  | property => Property
  | concreteDefinition => ConcreteDefinition

/-- How records of a kind are written and loaded. -/
def codec : (part : Part) → Codec part.Carrier
  | document => Document.codec
  | info => Info.record.codec
  | license => License.record.codec
  | contact => Contact.record.codec
  | documentOption => DocumentOption.record.codec
  | tag => Tag.record.codec
  | security => Security.record.codec
  | externalDocs => ExternalDocs.record.codec
  | operation => Operation.record.codec
  | parameter => Parameter.record.codec
  | response => Response.record.codec
  | definition => Definition.codec
  | property => Property.codec
  | concreteDefinition => ConcreteDefinition.codec

/-- The values that a record passes through, those of its parts included. -/
def passThrough : (part : Part) → part.Carrier → List Json.Value
  | document, d => d.definitions.flatMap (ApiSchema.passThrough ·.properties)
  | definition, d => ApiSchema.passThrough d.properties
  | concreteDefinition, d => ApiSchema.passThrough d.properties
  | property, p => p.passThrough
  | info, _ | license, _ | contact, _ | documentOption, _ | tag, _ | security, _
  | externalDocs, _ | operation, _ | parameter, _ | response, _ => []

/-- A record as it is loaded: in its properties a default or a sample that is `null` is absent. -/
def settled : (part : Part) → part.Carrier → part.Carrier
  | document, d => d.settled
  | definition, d => d.settled
  | concreteDefinition, d => d.settled
  | property, p => p.settled
  | info, v | license, v | contact, v | documentOption, v | tag, v | security, v
  | externalDocs, v | operation, v | parameter, v | response, v => v

theorem reads (part : Part) (v : part.Carrier) (exact : ∀ w ∈ part.passThrough v, w.Exact) :
    part.codec.Reads v (part.settled v) := by
  cases part with
  | document => exact Document.reads exact
  | info => exact Info.reads v
  | license => exact License.reads v
  | contact => exact Contact.reads v
  | documentOption => exact DocumentOption.reads v
  | tag => exact Tag.reads v
  | security => exact Security.reads v
  | externalDocs => exact ExternalDocs.reads v
  | operation => exact Operation.reads v
  | parameter => exact Parameter.reads v
  | response => exact Response.reads v
  | definition => exact Definition.reads exact
  | property => exact Property.reads exact
  | concreteDefinition => exact ConcreteDefinition.reads exact

/-- What is written for any record of a document is loaded as that record, settled: if the values
that it passes through hold no floating-point number and have each key once, and if at most 127
arrays and objects stand inside of each other in what is written. -/
theorem decode_print (part : Part) (v : part.Carrier)
    (exact : ∀ w ∈ part.passThrough v, w.FloatFree ∧ w.Keyed)
    (nested : (part.codec.encode v).nesting ≤ 127) :
    part.codec.decode (part.codec.print v) = .ok (part.settled v) :=
  (part.reads v exact).decode_eq_ok nested

/-- An object whose keys are not in order, and values of several kinds in it. -/
def mixedSample : Json.Value :=
  .object [("z".toList, .array [.null, .string ['\t']]),
    ("a".toList, .integer (.ofUInt64 18446744073709551615))]

/-- A document with escapes in its texts, numbers at their bounds and a default that is `null`. -/
def quotedShelves : Document where
  basePath := "/\"\\\n\x01é😀".toList
  option := some { routesAliases := .ofList [("z".toList, "1".toList), ("a".toList, [])] }
  operations := [{ Operation.new "get".toList "/shelves".toList [] with
    responses := [{ code := 65535, type := "Shelf<Book>".toList }] }]
  definitions := [
    { name := "Shelf".toList
      parameters := ["T".toList]
      properties := [
        { name := "books".toList
          type := "T[]".toList
          default := some .null
          sample := some mixedSample
          choices := [.null, .boolean true]
          maxLength := some 18446744073709551615
          minimum := some (-9223372036854775808) }] }]

theorem decode_print_quotedShelves :
    document.passThrough quotedShelves = [.null, mixedSample, .null, .boolean true] ∧
      (∀ w ∈ document.passThrough quotedShelves, w.FloatFree ∧ w.Keyed) ∧
      (document.codec.encode quotedShelves).nesting = 7 ∧
      document.codec.decode (document.codec.print quotedShelves) = .ok quotedShelves.settled ∧
      quotedShelves.settled.definitions.flatMap (·.properties.map fun p => p.default.isSome) =
        [false] := by
  have free : mixedSample.FloatFree := by
    refine .object (List.forall_mem_cons.2 ⟨.array ?_, List.forall_mem_singleton.2 (.integer _)⟩)
    exact List.forall_mem_cons.2 ⟨.null, List.forall_mem_singleton.2 (.string _)⟩
  have keyed : mixedSample.Keyed := by
    refine .object (by decide)
      (List.forall_mem_cons.2 ⟨.array ?_, List.forall_mem_singleton.2 (.integer _)⟩)
    exact List.forall_mem_cons.2 ⟨.null, List.forall_mem_singleton.2 (.string _)⟩
  have listed : document.passThrough quotedShelves =
      [.null, mixedSample, .null, .boolean true] := rfl
  have exact : ∀ w ∈ document.passThrough quotedShelves, w.FloatFree ∧ w.Keyed := by
    rw [listed]
    exact List.forall_mem_cons.2 ⟨⟨.null, .null⟩, List.forall_mem_cons.2 ⟨⟨free, keyed⟩,
      List.forall_mem_cons.2 ⟨⟨.null, .null⟩,
        List.forall_mem_singleton.2 ⟨.boolean true, .boolean true⟩⟩⟩⟩
  have nested : (document.codec.encode quotedShelves).nesting = 7 := by decide +kernel
  have loaded := decode_print document quotedShelves exact (by rw [nested]; decide)
  exact ⟨listed, exact, nested, loaded, rfl⟩

end Part

end ApiSchema
