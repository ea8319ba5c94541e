import ApiSchema.Json.Record
import ApiSchema.Proofs.Json.Reading

/-!
# Codecs that read what they wrote

`codec.Reads a b` says that what the codec writes for `a` it reads as `b`. Mostly `b` is `a` again,
but what is written as `null` is read as nothing, so the two may differ.

For records the fields are taken one after the other. `Rebuilds s fields t t'` says that reading what
`fields` write for the record `s` takes the record `t` to `t'`: a field that is written has its
effect, and one that is left out has none. A record whose fields rebuild `s'` from the initial record
is read as `s'` (`Record.reads_codec`).
-/

namespace ApiSchema.Json

variable {α σ : Type}

namespace Codec

/-- What the codec writes for `a` is read as `b`. -/
def Reads (codec : Codec α) (a b : α) : Prop :=
  codec.read.Reads (codec.encode a) b

variable {codec : Codec α}

/-- Within the limit on nesting, the text of a value is decoded. -/
theorem Reads.decode_eq_ok {a b : α} (reads : codec.Reads a b)
    (nested : (codec.encode a).nesting ≤ nestingLimit) :
    codec.decode (codec.print a) = .ok b := by
  have read := (reads _ nestingLimit ⟨Nat.le_refl _, nested⟩).reads [] closes_nil
  rw [List.append_nil] at read
  rw [decode, print, read]
  rfl

/-! ## Scalars -/

theorem reads_string (text : Text) : string.Reads text text := by
  refine fun values nesting _ => ⟨(Value.FloatFree.string text).legible, fun rest _ => ?_⟩
  show Reader.string values nesting ((Value.string text).print ++ rest) = _
  rw [Value.print_string_append, Reader.string, skipSpaces_cons _ rfl]
  simp only [scanString_print]
  rfl

theorem reads_boolean (b : Bool) : boolean.Reads b b := by
  refine fun values nesting _ => ⟨(Value.FloatFree.boolean b).legible, fun rest _ => ?_⟩
  cases b <;> rfl

theorem reads_number {expected : Expected} {make : Int → Option α} {n : Integer} {a : α}
    (made : make n.val = some a) : (Reader.number expected make).Reads (.integer n) a := by
  refine fun values nesting _ => ⟨(Value.FloatFree.integer n).legible, fun rest closes => ?_⟩
  rw [Value.print]
  rcases scan_signedDigits n closes with
    ⟨text, spelled, scanned⟩ | ⟨c, text, digit, spelled, scanned⟩
  · rw [spelled, Reader.number, skipSpaces_cons _ rfl]
    simp only [if_true, scanned, made]
  · rw [spelled, Reader.number, skipSpaces_cons _ (isSpace_eq_false_of_isDigit digit)]
    have unsigned : c ≠ '-' := ne_of_isDigit digit rfl
    simp only [unsigned, if_false, digit, if_true, scanned, made]

theorem reads_natural16 (n : UInt16) : natural16.Reads n n := by
  unfold Reads natural16 Reader.natural16
  dsimp only
  refine reads_number ?_
  have same : (Integer.ofUInt64 n.toUInt64).val = n.toNat := by simp [Integer.ofUInt64]
  rw [same, if_pos ⟨Int.natCast_nonneg _, Int.ofNat_lt.2 n.toNat_lt⟩, Int.toNat_natCast,
    UInt16.ofNat_toNat]

theorem reads_natural64 (n : UInt64) : natural64.Reads n n := by
  unfold Reads natural64 Reader.natural64
  dsimp only
  refine reads_number ?_
  have same : (Integer.ofUInt64 n).val = n.toNat := rfl
  rw [same, if_pos ⟨Int.natCast_nonneg _, Int.ofNat_lt.2 n.toNat_lt⟩, Int.toNat_natCast,
    UInt64.ofNat_toNat]

theorem reads_integer64 (n : Int64) : integer64.Reads n n := by
  unfold Reads integer64 Reader.integer64
  dsimp only
  refine reads_number ?_
  have same : (Integer.ofInt64 n).val = n.toInt := rfl
  rw [same, if_pos ⟨n.minValue_le_toInt, n.toInt_le⟩, Int64.ofInt_toInt]

theorem reads_value {v : Value} (free : v.FloatFree) (keyed : v.Keyed) : value.Reads v v :=
  Json.reads_value free keyed

/-! ## Values that may be absent -/

/-- Nothing is written as `null`, and `null` is read as nothing. -/
theorem reads_option_null {a : Option α} (written : codec.option.encode a = .null) :
    codec.option.Reads a none := by
  refine fun values nesting _ => ⟨written ▸ Value.FloatFree.null.legible, fun rest _ => ?_⟩
  rw [written]
  rfl

theorem Reads.option {a b : α} (reads : codec.Reads a b) (present : codec.encode a ≠ .null) :
    codec.option.Reads (some a) (some b) := by
  intro values nesting fits
  obtain ⟨legible, read⟩ := reads values nesting fits
  refine ⟨legible, fun rest closes => ?_⟩
  obtain ⟨c, text, spelled, ink, -, null⟩ := Value.exists_print_eq_cons legible
  have inner := read rest closes
  show codec.read.option values nesting ((codec.encode a).print ++ rest) = _
  rw [spelled, List.cons_append] at inner ⊢
  rw [Reader.option, skipSpaces_cons _ ink]
  split
  · rename_i rest' same
    exact absurd (null (List.cons.inj same).1) present
  · rw [inner]
    rfl

theorem reads_option {o : Option α}
    (each : ∀ a ∈ o, codec.Reads a a ∧ codec.encode a ≠ .null) : codec.option.Reads o o := by
  cases o with
  | none => exact reads_option_null rfl
  | some a =>
    obtain ⟨reads, present⟩ := each a rfl
    exact reads.option present

/-! ## Lists and dictionaries -/

theorem reads_list {as bs : List α} (each : List.Forall₂ codec.Reads as bs) :
    codec.list.Reads as bs := by
  intro values nesting fits
  obtain ⟨inner, rfl, room, fits⟩ := Value.Fits.array fits
  have undone : List.Forall₂ (Undoes (codec.read values inner)) (as.map codec.encode) bs := by
    rw [List.forall₂_map_left_iff]
    have fitting : ∀ a ∈ as, (codec.encode a).Fits values inner :=
      fun a member => fits _ (List.mem_map_of_mem member)
    refine ((List.forall₂_and_left _ _).2 ⟨fitting, each⟩).imp ?_
    exact fun a b ⟨fits, reads⟩ => reads values inner fits
  refine ⟨Value.legible_array _, fun rest _ => ?_⟩
  show codec.read.list values (inner + 1) ((Value.array (as.map codec.encode)).print ++ rest) = _
  rw [Value.print_array_append, Reader.list, skipSpaces_cons _ rfl]
  exact readList_print undone room rest

/-- Each item may be read as another one. -/
theorem reads_list_map {as : List α} {f : α → α} (each : ∀ a ∈ as, codec.Reads a (f a)) :
    codec.list.Reads as (as.map f) := by
  refine reads_list ?_
  rw [List.forall₂_map_right_iff]
  exact List.forall₂_same.2 each

theorem reads_list_self {as : List α} (each : ∀ a ∈ as, codec.Reads a a) :
    codec.list.Reads as as :=
  reads_list (List.forall₂_same.2 each)

theorem reads_dict {d : Dict α} (each : ∀ a ∈ d.values, codec.Reads a a) :
    codec.dict.Reads d d := by
  intro values nesting fits
  obtain ⟨inner, rfl, room, fits⟩ := Value.Fits.object fits
  have undone : List.Forall₂ (fun m e => m.1 = e.1 ∧ Undoes (codec.read values inner) m.2 e.2)
      (d.entries.map fun entry => (entry.1, codec.encode entry.2)) d.entries := by
    rw [List.forall₂_map_left_iff]
    refine List.forall₂_same.2 fun entry member => ⟨rfl, ?_⟩
    exact each entry.2 (List.mem_map_of_mem member) _ _ (fits _ (List.mem_map_of_mem member))
  refine ⟨Value.legible_object _, fun rest _ => ?_⟩
  have entries := readEntries_print undone d.distinct room rest
  show codec.read.dict values (inner + 1) ((Value.object
    (d.entries.map fun entry => (entry.1, codec.encode entry.2))).print ++ rest) = _
  rw [Value.print_object_append, Reader.dict, skipSpaces_cons _ rfl]
  simp only [entries, bind, Except.bind, Dict.ofList_entries]
  rfl

end Codec

/-! ## Fields -/

/-- Reading what the fields write for the record `s`, one after the other, takes one record to
another. A field that writes nothing is not read. -/
inductive Rebuilds (s : σ) : List (Field σ) → σ → σ → Prop
  | nil (t : σ) : Rebuilds s [] t t
  | shown {field : Field σ} {fields : List (Field σ)} {v : Value} {update : σ → σ} {t t' : σ} :
    field.encode s = some v → field.read.Reads v update → Rebuilds s fields (update t) t' →
    Rebuilds s (field :: fields) t t'
  | hidden {field : Field σ} {fields : List (Field σ)} {t t' : σ} : field.encode s = none →
    Rebuilds s fields t t' → Rebuilds s (field :: fields) t t'

namespace Rebuilds

variable {s t t' : σ} {fields : List (Field σ)} {key : String} {codec : Codec α} {set : α → σ → σ}

theorem reads_shownIf {shown : α → Bool} {get : σ → α} {a b : α} (reads : codec.Reads a b) :
    (Field.shownIf shown key codec get set).read.Reads (codec.encode a) (set b) := by
  intro values nesting fits
  obtain ⟨legible, read⟩ := reads values nesting fits
  refine ⟨legible, fun rest closes => ?_⟩
  show (codec.read values nesting _).map _ = _
  rw [read rest closes]
  rfl

theorem shownIf {shown : α → Bool} {get : σ → α} {b : α}
    (reads : shown (get s) = true → codec.Reads (get s) b)
    (absent : shown (get s) = false → set b t = t) (rest : Rebuilds s fields (set b t) t') :
    Rebuilds s (.shownIf shown key codec get set :: fields) t t' := by
  cases present : shown (get s) with
  | true =>
    refine .shown (v := codec.encode (get s)) ?_ (reads_shownIf (reads present)) rest
    exact if_pos present
  | false =>
    rw [absent present] at rest
    refine .hidden ?_ rest
    exact if_neg (by simp [present])

/-- A field that is always written takes the value that is read. -/
theorem always {get : σ → α} {b : α} (reads : codec.Reads (get s) b)
    (rest : Rebuilds s fields (set b t) t') :
    Rebuilds s (.always key codec get set :: fields) t t' :=
  shownIf (fun _ => reads) (fun hidden => by cases hidden) rest

/-- A field without a value is left out, so the record has to be without one already. -/
theorem ifSome {get : σ → Option α} {set : Option α → σ → σ} {b : Option α}
    (same : ∀ t, set (get t) t = t) (reads : codec.option.Reads (get s) b)
    (absent : get s = none → get t = b) (rest : Rebuilds s fields (set b t) t') :
    Rebuilds s (.ifSome key codec get set :: fields) t t' := by
  refine shownIf (fun _ => reads) (fun hidden => ?_) rest
  rw [← absent (by simpa using hidden), same]

/-- A field with an empty list is left out, so the list of the record has to be empty already. -/
theorem ifNonempty {get : σ → List α} {set : List α → σ → σ} {b : List α}
    (same : ∀ t, set (get t) t = t) (reads : codec.list.Reads (get s) b)
    (absent : get s = [] → get t = b) (rest : Rebuilds s fields (set b t) t') :
    Rebuilds s (.ifNonempty key codec get set :: fields) t t' := by
  refine shownIf (fun _ => reads) (fun hidden => ?_) rest
  rw [← absent (by simpa using hidden), same]

end Rebuilds

/-! ## Records -/

namespace Record

variable {record : Record σ} {s s' : σ}

theorem field?_of_mem (distinct : (record.fields.map Field.key).Nodup) {field : Field σ}
    (member : field ∈ record.fields) : record.field? field.key = some field := by
  rw [field?]
  generalize record.fields = fields at distinct member
  induction fields with
  | nil => cases member
  | cons first fields ih =>
    obtain ⟨own, others⟩ := List.nodup_cons.1 distinct
    rcases List.mem_cons.1 member with rfl | later
    · exact List.find?_cons_of_pos (beq_self_eq_true field.key)
    · have other : (first.key == field.key) = false :=
        beq_false_of_ne fun same => own (same ▸ List.mem_map_of_mem later)
      rw [List.find?_cons, other]
      exact ih others later

/-- Fields that rebuild a record have that effect when their members are gone over, and each that
is written is read. -/
theorem folds_of_rebuilds {fields : List (Field σ)} {t t' : σ} {values nesting : Nat}
    (rebuilds : Rebuilds s fields t t')
    (known : ∀ field ∈ fields, record.field? field.key = some field)
    (distinct : (fields.map Field.key).Nodup) {read : List Text}
    (fresh : ∀ field ∈ fields, field.key ∉ read)
    (fits : ∀ field ∈ fields, ∀ v ∈ field.encode s, v.Fits values nesting) :
    ∃ read', Folds (record.readField values nesting)
        (fields.filterMap fun field => (field.encode s).map (field.key, ·)) (read, t) (read', t') ∧
      read ⊆ read' ∧ ∀ field ∈ fields, (field.encode s).isSome → field.key ∈ read' := by
  induction rebuilds generalizing read with
  | nil t => exact ⟨read, .nil _, fun _ member => member, by simp⟩
  | @shown field fields v update t t' written reads _ ih =>
    obtain ⟨own, others⟩ := List.nodup_cons.1 distinct
    obtain ⟨knownHere, knownThere⟩ := List.forall_mem_cons.1 known
    obtain ⟨freshHere, freshThere⟩ := List.forall_mem_cons.1 fresh
    obtain ⟨fitsHere, fitsThere⟩ := List.forall_mem_cons.1 fits
    have freshBelow : ∀ other ∈ fields, other.key ∉ field.key :: read := by
      intro other member listed
      rcases List.mem_cons.1 listed with same | earlier
      · exact own (same ▸ List.mem_map_of_mem member)
      · exact freshThere other member earlier
    obtain ⟨read', folds, kept, each⟩ := ih knownThere others freshBelow fitsThere
    have undoes := reads values nesting (fitsHere v written)
    have step : ∀ rest, Closes rest →
        record.readField values nesting (read, t) field.key (':' :: v.print ++ rest) =
          .ok ((field.key :: read, update t), rest) := by
      intro rest closes
      rw [readField, knownHere]
      simp only [if_neg freshHere, undoes.readMember field.key closes, bind, Except.bind]
      rfl
    have member : field.key ∈ read' := kept (List.mem_cons_self ..)
    refine ⟨read', ?_, fun key listed => kept (List.mem_cons_of_mem _ listed),
      List.forall_mem_cons.2 ⟨fun _ => member, each⟩⟩
    rw [List.filterMap_cons, written]
    exact .cons step folds
  | @hidden field fields t t' written _ ih =>
    obtain ⟨-, others⟩ := List.nodup_cons.1 distinct
    obtain ⟨read', folds, kept, each⟩ := ih (List.forall_mem_cons.1 known).2 others
      (List.forall_mem_cons.1 fresh).2 (List.forall_mem_cons.1 fits).2
    refine ⟨read', ?_, kept, List.forall_mem_cons.2 ⟨fun some => ?_, each⟩⟩
    · rwa [List.filterMap_cons, written]
    · rw [written] at some
      cases some

/-- A record is read as what its fields rebuild from the initial record. If every field has to be
there, every field has to be written. -/
theorem reads_codec (distinct : (record.fields.map Field.key).Nodup)
    (whole : record.complete = true → ∀ field ∈ record.fields, (field.encode s).isSome)
    (rebuilds : Rebuilds s record.fields record.initial s') : record.codec.Reads s s' := by
  intro values nesting fits
  obtain ⟨inner, rfl, room, fits⟩ := Value.Fits.object fits
  have fitsFields : ∀ field ∈ record.fields, ∀ v ∈ field.encode s, v.Fits values inner := by
    intro field member v written
    refine fits (field.key, v) (List.mem_filterMap.2 ⟨field, member, ?_⟩)
    rw [Option.mem_def.1 written]
    rfl
  have fresh : ∀ field ∈ record.fields, field.key ∉ ([] : List Text) := by simp
  obtain ⟨read, folds, -, each⟩ :=
    folds_of_rebuilds rebuilds (fun _ => field?_of_mem distinct) distinct fresh fitsFields
  have found : record.missing? read = none := by
    rw [missing?]
    split
    · rename_i complete
      rw [List.find?_eq_none]
      intro key listed
      obtain ⟨field, member, rfl⟩ := List.mem_map.1 listed
      simpa using each field member (whole complete field member)
    · rfl
  refine ⟨Value.legible_object _, fun rest _ => ?_⟩
  show record.read values (inner + 1) ((Value.object (record.members s)).print ++ rest) = _
  rw [Value.print_object_append, Record.read, skipSpaces_cons _ rfl]
  show record.readObject values inner _ = _
  have folded := folds.foldMembers_print room rest
  rw [readObject, members, folded]
  simp only [bind, Except.bind, found, here, endObject_of_closing, Except.mapError]
  rfl

theorem reads_option {o : Option σ} (each : ∀ a ∈ o, record.codec.Reads a a) :
    record.codec.option.Reads o o :=
  Codec.reads_option fun a member => ⟨each a member, by simp [codec]⟩

end Record

end ApiSchema.Json
