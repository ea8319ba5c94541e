import Mathlib.Data.List.Forall2
import ApiSchema.Proofs.Json.Scanning
import ApiSchema.Proofs.Registration

/-!
# Reading what was printed

`Undoes read v a` says that `read` takes the printed value `v` off the start of a text and makes `a`
of it, and `read.Reads v a` that a reader does so wherever its bounds leave room for the value
(`Value.Fits`). The loops over items and members undo the printing of lists and objects if their
readers undo the printing of the parts (`readList_print`, `Folds.foldMembers_print`). For values of
any kind the induction closes: a value without floating-point numbers in which each object has its
keys once is read as it is (`reads_value`).
-/

namespace ApiSchema.Json

/-! ## Values that are read as they are -/

namespace Value

/-- There is no floating-point number in the value. -/
inductive FloatFree : Value → Prop
  | null : FloatFree null
  | boolean (b : Bool) : FloatFree (boolean b)
  | integer (n : Integer) : FloatFree (integer n)
  | string (text : Text) : FloatFree (string text)
  | array {items : List Value} : (∀ item ∈ items, FloatFree item) → FloatFree (array items)
  | object {members : List (Text × Value)} : (∀ member ∈ members, FloatFree member.2) →
    FloatFree (object members)

/-- The value itself is no floating-point number. -/
def Legible (v : Value) : Prop :=
  ∀ x, v ≠ float x

theorem FloatFree.legible {v : Value} (free : v.FloatFree) : v.Legible := by
  rintro x rfl
  cases free

theorem legible_array (items : List Value) : (array items).Legible :=
  fun _ same => by cases same

theorem legible_object (members : List (Text × Value)) : (object members).Legible :=
  fun _ same => by cases same

/-- Each object in the value has each of its keys once, as it is with a map. -/
inductive Keyed : Value → Prop
  | null : Keyed null
  | boolean (b : Bool) : Keyed (boolean b)
  | integer (n : Integer) : Keyed (integer n)
  | float (x : Binary64) : Keyed (float x)
  | string (text : Text) : Keyed (string text)
  | array {items : List Value} : (∀ item ∈ items, Keyed item) → Keyed (array items)
  | object {members : List (Text × Value)} : (members.map Prod.fst).Nodup →
    (∀ member ∈ members, Keyed member.2) → Keyed (object members)

mutual

/-- How many arrays and objects stand inside of each other. -/
def nesting : Value → Nat
  | array items => nestingOfItems items + 1
  | object members => nestingOfMembers members + 1
  | null | boolean _ | integer _ | float _ | string _ => 0
termination_by structural value => value

/-- The most that any item is nested. -/
def nestingOfItems : List Value → Nat
  | [] => 0
  | item :: items => max (nesting item) (nestingOfItems items)
termination_by structural items => items

/-- The most that any member is nested. -/
def nestingOfMembers : List (Text × Value) → Nat
  | [] => 0
  | member :: members => max (nestingOfMember member) (nestingOfMembers members)
termination_by structural members => members

/-- How much the value of a member is nested. -/
def nestingOfMember : Text × Value → Nat
  | (_, value) => nesting value
termination_by structural member => member

end

theorem le_nestingOfItems {item : Value} {items : List Value} (member : item ∈ items) :
    item.nesting ≤ nestingOfItems items := by
  induction items with
  | nil => cases member
  | cons first items ih =>
    rw [nestingOfItems]
    rcases List.mem_cons.1 member with rfl | later
    · exact Nat.le_max_left ..
    · exact Nat.le_trans (ih later) (Nat.le_max_right ..)

theorem le_nestingOfMembers {entry : Text × Value} {members : List (Text × Value)}
    (member : entry ∈ members) : entry.2.nesting ≤ nestingOfMembers members := by
  induction members with
  | nil => cases member
  | cons first members ih =>
    rw [nestingOfMembers, nestingOfMember.eq_def]
    rcases List.mem_cons.1 member with rfl | later
    · exact Nat.le_max_left ..
    · exact Nat.le_trans (ih later) (Nat.le_max_right ..)

end Value

/-! ## The texts of values -/

/-- The first part, and the others each behind a comma. -/
theorem commaSeparated_cons (part : Text) (parts : List Text) :
    commaSeparated (part :: parts) = part ++ parts.flatMap (',' :: ·) := by
  induction parts generalizing part with
  | nil => rw [commaSeparated, List.flatMap_nil, List.append_nil]
  | cons next parts ih =>
    rw [commaSeparated, ih, List.flatMap_cons, List.cons_append]
    exact List.cons_ne_nil _ _

theorem length_flatMap_comma (parts : List Text) :
    parts.length ≤ (parts.flatMap (',' :: ·)).length ∧
      ∀ part ∈ parts, part.length ≤ (parts.flatMap (',' :: ·)).length := by
  induction parts with
  | nil => simp
  | cons part parts ih =>
    obtain ⟨count, each⟩ := ih
    rw [List.flatMap_cons, List.length_append, List.length_cons, List.length_cons]
    refine ⟨by omega, List.forall_mem_cons.2 ⟨by omega, fun other member => ?_⟩⟩
    have := each other member
    omega

/-- A text in brackets is longer than its parts, and than their number. -/
theorem length_of_bracketed {β : Type} {f : β → Text} {l : List β} {opening closing : Char}
    {values : Nat}
    (length : (opening :: commaSeparated (l.map f) ++ [closing]).length ≤ values) :
    l.length ≤ values ∧ ∀ b ∈ l, (f b).length ≤ values := by
  rw [List.cons_append, List.length_cons, List.length_append, List.length_singleton] at length
  cases l with
  | nil => simp
  | cons b l =>
    obtain ⟨count, each⟩ := length_flatMap_comma (l.map f)
    rw [List.map_cons, commaSeparated_cons, List.length_append] at length
    rw [List.length_map] at count
    refine ⟨by rw [List.length_cons]; omega, List.forall_mem_cons.2 ⟨by omega, fun c member => ?_⟩⟩
    have := each _ (List.mem_map_of_mem member)
    omega

namespace Value

theorem printItems_eq_map (items : List Value) : printItems items = items.map print := by
  induction items with
  | nil => rfl
  | cons item items ih => rw [printItems, ih, List.map_cons]

theorem printMembers_eq_map (members : List (Text × Value)) :
    printMembers members = members.map printMember := by
  induction members with
  | nil => rfl
  | cons member members ih => rw [printMembers, ih, List.map_cons]

theorem print_string_append (text rest : Text) :
    (string text).print ++ rest = '"' :: (text.flatMap escapeChar ++ '"' :: rest) := by
  rw [print, printString, List.append_assoc]
  rfl

theorem print_array_append (items : List Value) (rest : Text) :
    (array items).print ++ rest = '[' :: (commaSeparated (printItems items) ++ ']' :: rest) := by
  rw [print, List.append_assoc]
  rfl

theorem print_object_append (members : List (Text × Value)) (rest : Text) :
    (object members).print ++ rest =
      '{' :: (commaSeparated (printMembers members) ++ '}' :: rest) := by
  rw [print, List.append_assoc]
  rfl

/-- What a printed value starts with. Only `null` starts with its letter. -/
theorem exists_print_eq_cons {v : Value} (legible : v.Legible) :
    ∃ c text, v.print = c :: text ∧ isSpace c = false ∧ c ≠ ']' ∧ (c = 'n' → v = null) := by
  have digits : ∀ m : Nat, ∃ c text, digits m = c :: text ∧ c.isDigit = true := by
    intro m
    obtain ⟨c, text, spelled⟩ := List.exists_cons_of_ne_nil (digits_ne_nil m)
    exact ⟨c, text, spelled, isDigit_of_mem_digits m c (by rw [spelled]; exact List.mem_cons_self ..)⟩
  cases v with
  | null => exact ⟨'n', "ull".toList, rfl, rfl, by decide, fun _ => rfl⟩
  | boolean b =>
    cases b with
    | true => exact ⟨'t', "rue".toList, rfl, rfl, by decide, fun same => by cases same⟩
    | false => exact ⟨'f', "alse".toList, rfl, rfl, by decide, fun same => by cases same⟩
  | integer n =>
    rw [print, signedDigits]
    split
    · exact ⟨'-', _, rfl, rfl, by decide, fun same => by cases same⟩
    · obtain ⟨c, text, spelled, digit⟩ := digits n.val.natAbs
      exact ⟨c, text, spelled, isSpace_eq_false_of_isDigit digit, ne_of_isDigit digit rfl,
        fun same => absurd same (ne_of_isDigit digit rfl)⟩
  | float x => exact absurd rfl (legible x)
  | string text =>
    exact ⟨'"', text.flatMap escapeChar ++ ['"'], rfl, rfl, by decide, fun same => by cases same⟩
  | array items =>
    exact ⟨'[', commaSeparated (printItems items) ++ [']'], rfl, rfl, by decide,
      fun same => by cases same⟩
  | object members =>
    exact ⟨'{', commaSeparated (printMembers members) ++ ['}'], rfl, rfl, by decide,
      fun same => by cases same⟩

/-- The bounds of a reader leave room for the value. -/
structure Fits (v : Value) (values nesting : Nat) : Prop where
  length : v.print.length ≤ values
  nested : v.nesting ≤ nesting

theorem Fits.array {items : List Value} {values nesting : Nat}
    (fits : (array items).Fits values nesting) :
    ∃ inner, nesting = inner + 1 ∧ items.length ≤ values ∧
      ∀ item ∈ items, item.Fits values inner := by
  obtain ⟨length, nested⟩ := fits
  rw [print, printItems_eq_map] at length
  rw [Value.nesting] at nested
  obtain ⟨room, each⟩ := length_of_bracketed length
  refine ⟨nesting - 1, by omega, room, fun item member => ⟨each item member, ?_⟩⟩
  have := le_nestingOfItems member
  omega

theorem Fits.object {members : List (Text × Value)} {values nesting : Nat}
    (fits : (object members).Fits values nesting) :
    ∃ inner, nesting = inner + 1 ∧ members.length ≤ values ∧
      ∀ entry ∈ members, entry.2.Fits values inner := by
  obtain ⟨length, nested⟩ := fits
  rw [print, printMembers_eq_map] at length
  rw [Value.nesting] at nested
  obtain ⟨room, each⟩ := length_of_bracketed length
  refine ⟨nesting - 1, by omega, room, fun entry member => ⟨?_, ?_⟩⟩
  · have whole := each entry member
    rw [printMember.eq_def, List.length_append, List.length_cons] at whole
    omega
  · have := le_nestingOfMembers member
    omega

end Value

/-! ## Undoing the printing -/

variable {α σ : Type}

/-- `read` takes the printed value off the start of a text, and makes `a` of it. -/
structure Undoes (read : Text → Except Failure (α × Text)) (v : Value) (a : α) : Prop where
  legible : v.Legible
  reads : ∀ rest, Closes rest → read (v.print ++ rest) = .ok (a, rest)

/-- The reader undoes the printing of the value wherever its bounds leave room for it. -/
def Reader.Reads (read : Reader α) (v : Value) (a : α) : Prop :=
  ∀ values nesting, v.Fits values nesting → Undoes (read values nesting) v a

theorem skipSpaces_cons {c : Char} (text : Text) (ink : isSpace c = false) :
    skipSpaces (c :: text) = c :: text := by
  rw [skipSpaces, List.dropWhile_cons_of_neg (by simp [ink])]

/-- What closes behind a part is the comma in front of the next, or the bracket. -/
theorem closes_flatMap (parts : List Text) {c : Char} (closing : c = ']' ∨ c = '}') (rest : Text) :
    Closes (parts.flatMap (',' :: ·) ++ c :: rest) := by
  cases parts with
  | nil => exact closes_cons (.inr closing) rest
  | cons part parts => exact closes_cons (.inl rfl) _

/-! ## Lists -/

section

variable {read : Text → Except Failure (α × Text)} {v : Value}

theorem nextItem_first (legible : v.Legible) (rest : Text) :
    nextItem true (v.print ++ rest) = .ok (true, v.print ++ rest) := by
  obtain ⟨c, text, spelled, ink, inner, -⟩ := Value.exists_print_eq_cons legible
  rw [spelled, List.cons_append, nextItem, skipSpaces_cons _ ink]
  simp [inner]

theorem nextItem_later (legible : v.Legible) (rest : Text) :
    nextItem false (',' :: v.print ++ rest) = .ok (true, v.print ++ rest) := by
  obtain ⟨c, text, spelled, ink, inner, -⟩ := Value.exists_print_eq_cons legible
  rw [spelled, List.cons_append, List.cons_append, nextItem, skipSpaces_cons _ rfl]
  simp [skipSpaces_cons _ ink, inner]

theorem readItems_step {a : α} {values index : Nat} {isFirst : Bool} {text rest : Text}
    (place : (index == 0) = isFirst) (next : nextItem isFirst text = .ok (true, v.print ++ rest))
    (item : read (v.print ++ rest) = .ok (a, rest)) :
    readItems read (values + 1) index text =
      (readItems read values (index + 1) rest).map fun (as, rest) => (a :: as, rest) := by
  rw [readItems, place, next]
  simp only [here, Except.mapError, bind, Except.bind, if_true, item]
  cases readItems read values (index + 1) rest <;> rfl

theorem readItems_end {values index : Nat} (rest : Text) :
    readItems read (values + 1) index (']' :: rest) = .ok ([], ']' :: rest) := by
  rw [readItems, nextItem, skipSpaces_cons _ rfl]
  rfl

/-- The items behind the first one. -/
theorem readItems_later {items : List Value} {as : List α}
    (each : List.Forall₂ (Undoes read) items as) {values index : Nat}
    (room : items.length < values) (later : index ≠ 0) (rest : Text) :
    readItems read values index ((items.map Value.print).flatMap (',' :: ·) ++ ']' :: rest) =
      .ok (as, ']' :: rest) := by
  induction each generalizing values index with
  | nil =>
    obtain ⟨values, rfl⟩ := Nat.exists_eq_add_one_of_ne_zero (Nat.ne_zero_of_lt room)
    exact readItems_end rest
  | @cons v a items as first _ ih =>
    obtain ⟨values, rfl⟩ := Nat.exists_eq_add_one_of_ne_zero (Nat.ne_zero_of_lt room)
    rw [List.map_cons, List.flatMap_cons, List.append_assoc]
    rw [readItems_step (beq_false_of_ne later) (nextItem_later first.legible _)
      (first.reads _ (closes_flatMap _ (.inl rfl) rest)),
      ih (Nat.lt_of_succ_lt_succ room) (Nat.succ_ne_zero index)]
    rfl

/-- Reading the items of a printed array gives what their reader makes of them. -/
theorem readList_print {items : List Value} {as : List α}
    (each : List.Forall₂ (Undoes read) items as) {values : Nat} (room : items.length ≤ values)
    (rest : Text) :
    readList read values (commaSeparated (Value.printItems items) ++ ']' :: rest) =
      .ok (as, rest) := by
  have listed : readItems read (values + 1) 0
      (commaSeparated (items.map Value.print) ++ ']' :: rest) = .ok (as, ']' :: rest) := by
    cases each with
    | nil => exact readItems_end rest
    | @cons v a items as first others =>
      rw [List.map_cons, commaSeparated_cons, List.append_assoc]
      rw [readItems_step (beq_self_eq_true 0) (nextItem_first first.legible _)
        (first.reads _ (closes_flatMap _ (.inl rfl) rest)),
        readItems_later others room (Nat.succ_ne_zero 0)]
      rfl
  have closed : endList (']' :: rest) = .ok rest := by
    rw [endList, skipSpaces_cons _ rfl]
    rfl
  rw [readList, Value.printItems_eq_map, listed]
  simp only [bind, Except.bind, here, closed, Except.mapError]
  rfl

end

/-! ## Objects -/

/-- Members take a state to another one, each read from the colon on. -/
inductive Folds (member : σ → Text → Text → Except Failure (σ × Text)) :
    List (Text × Value) → σ → σ → Prop
  | nil (s : σ) : Folds member [] s s
  | cons {key : Text} {v : Value} {members : List (Text × Value)} {s s' s'' : σ} :
    (∀ rest, Closes rest → member s key (':' :: v.print ++ rest) = .ok (s', rest)) →
    Folds member members s' s'' → Folds member ((key, v) :: members) s s''

section

variable {member : σ → Text → Text → Except Failure (σ × Text)} {s s' : σ}

theorem foldMembers_step {values : Nat} {isFirst : Bool} {key text rest after : Text}
    (next : nextKey isFirst text = .ok (true, key.flatMap escapeChar ++ '"' :: rest))
    (step : member s key rest = .ok (s', after)) :
    foldMembers member (values + 1) isFirst s text = foldMembers member values false s' after := by
  rw [foldMembers, next]
  simp only [here, Except.mapError, bind, Except.bind, if_true, scanString_print, step]

theorem foldMembers_end {values : Nat} {isFirst : Bool} (rest : Text) :
    foldMembers member (values + 1) isFirst s ('}' :: rest) = .ok (s, '}' :: rest) := by
  rw [foldMembers, nextKey, skipSpaces_cons _ rfl]
  rfl

theorem printMember_append (key : Text) (v : Value) (rest : Text) :
    Value.printMember (key, v) ++ rest =
      '"' :: (key.flatMap escapeChar ++ '"' :: (':' :: v.print ++ rest)) := by
  simp [Value.printMember, printString]

/-- The members behind the first one. -/
theorem Folds.foldMembers_later {members : List (Text × Value)} (folds : Folds member members s s')
    {values : Nat} (room : members.length < values) (rest : Text) :
    foldMembers member values false s
      ((members.map Value.printMember).flatMap (',' :: ·) ++ '}' :: rest) =
        .ok (s', '}' :: rest) := by
  induction folds generalizing values with
  | nil s =>
    obtain ⟨values, rfl⟩ := Nat.exists_eq_add_one_of_ne_zero (Nat.ne_zero_of_lt room)
    exact foldMembers_end rest
  | @cons key v members s s' s'' first _ ih =>
    obtain ⟨values, rfl⟩ := Nat.exists_eq_add_one_of_ne_zero (Nat.ne_zero_of_lt room)
    rw [List.map_cons, List.flatMap_cons, List.append_assoc, List.cons_append, printMember_append]
    have next : ∀ text, nextKey false (',' :: '"' :: text) = .ok (true, text) := fun _ => rfl
    rw [foldMembers_step (next _) (first _ (closes_flatMap _ (.inr rfl) rest))]
    exact ih (Nat.lt_of_succ_lt_succ room)

/-- Going over the members of a printed object has their effects, one after the other. -/
theorem Folds.foldMembers_print {members : List (Text × Value)} (folds : Folds member members s s')
    {values : Nat} (room : members.length ≤ values) (rest : Text) :
    foldMembers member (values + 1) true s
      (commaSeparated (Value.printMembers members) ++ '}' :: rest) = .ok (s', '}' :: rest) := by
  rw [Value.printMembers_eq_map]
  cases folds with
  | nil => exact foldMembers_end rest
  | @cons key v members _ s' _ first others =>
    rw [List.map_cons, commaSeparated_cons, List.append_assoc, printMember_append]
    have next : ∀ text, nextKey true ('"' :: text) = .ok (true, text) := fun _ => rfl
    rw [foldMembers_step (next _) (first _ (closes_flatMap _ (.inr rfl) rest))]
    exact others.foldMembers_later room rest

theorem endObject_of_closing (rest : Text) : endObject ('}' :: rest) = .ok rest := by
  rw [endObject, skipSpaces_cons _ rfl]
  rfl

end

section

variable {read : Text → Except Failure (α × Text)}

theorem Undoes.readMember {v : Value} {a : α} (undoes : Undoes read v a) (key : Text) {rest : Text}
    (closes : Closes rest) : readMember read key (':' :: v.print ++ rest) = .ok (a, rest) := by
  have colon : skipColon (':' :: (v.print ++ rest)) = .ok (v.print ++ rest) := rfl
  rw [Json.readMember, List.cons_append, colon]
  simp only [here, bind, Except.bind, Except.mapError, undoes.reads rest closes]

/-- Members with distinct keys become entries in the same order. -/
theorem folds_upsert {members : List (Text × Value)} {entries : List (Text × α)}
    (each : List.Forall₂ (fun m e => m.1 = e.1 ∧ Undoes read m.2 e.2) members entries)
    (start : List (Text × α)) (distinct : ((start ++ entries).map Prod.fst).Nodup) :
    Folds (fun entries key text => do
      let (value, rest) ← readMember read key text
      return (upsert key value entries, rest)) members start (start ++ entries) := by
  induction each generalizing start with
  | nil =>
    rw [List.append_nil]
    exact .nil start
  | @cons m e members entries first _ ih =>
    obtain ⟨key, v⟩ := m
    obtain ⟨_, a⟩ := e
    obtain ⟨rfl, undoes⟩ := first
    rw [List.append_cons] at distinct ⊢
    refine .cons (fun rest closes => ?_) (ih _ distinct)
    have absent : key ∉ start.map Prod.fst := by
      intro known
      rw [List.map_append, List.map_append] at distinct
      obtain ⟨-, -, apart⟩ := List.nodup_append.1 (List.nodup_append.1 distinct).1
      exact apart key known key (List.mem_singleton_self key) rfl
    simp only [undoes.readMember key closes, bind, Except.bind, upsert_of_not_mem absent]
    rfl

/-- Reading the members of a printed object gives entries with the same keys, in the same order. -/
theorem readEntries_print {members : List (Text × Value)} {entries : List (Text × α)}
    (each : List.Forall₂ (fun m e => m.1 = e.1 ∧ Undoes read m.2 e.2) members entries)
    (distinct : (entries.map Prod.fst).Nodup) {values : Nat} (room : members.length ≤ values)
    (rest : Text) :
    readEntries read values (commaSeparated (Value.printMembers members) ++ '}' :: rest) =
      .ok (entries, rest) := by
  have folded := (folds_upsert each [] distinct).foldMembers_print room rest
  rw [readEntries, folded]
  simp only [bind, Except.bind, here, endObject_of_closing, Except.mapError]
  rfl

end

/-! ## Any value -/

theorem readValue_print {v : Value} (free : v.FloatFree) (keyed : v.Keyed) {values nesting : Nat}
    (fits : v.Fits values nesting) {rest : Text} (closes : Closes rest) :
    readValue values nesting (v.print ++ rest) = .ok (v, rest) := by
  induction free generalizing nesting rest with
  | null =>
    rw [readValue.eq_def]
    rfl
  | boolean b =>
    rw [readValue.eq_def]
    cases b <;> rfl
  | integer n =>
    rw [Value.print]
    rcases scan_signedDigits n closes with
      ⟨text, spelled, scanned⟩ | ⟨c, text, digit, spelled, scanned⟩
    · have signed : readValue values nesting ('-' :: text) =
          here ((scanNumber true text).map fun read => (read.1.toValue, read.2)) := by
        rw [readValue.eq_def]
        rfl
      rw [spelled, signed, scanned]
      rfl
    · have unsigned : readValue values nesting (c :: text) =
          here ((scanNumber false (c :: text)).map fun read => (read.1.toValue, read.2)) := by
        rw [readValue.eq_def, skipSpaces_cons text (isSpace_eq_false_of_isDigit digit)]
        have notWord : c ≠ 'n' ∧ c ≠ 't' ∧ c ≠ 'f' ∧ c ≠ '-' :=
          ⟨ne_of_isDigit digit rfl, ne_of_isDigit digit rfl, ne_of_isDigit digit rfl,
            ne_of_isDigit digit rfl⟩
        simp only [notWord, if_false, digit, if_true]
      rw [spelled, unsigned, scanned]
      rfl
  | string text =>
    have opened (text : Text) : readValue values nesting ('"' :: text) =
        here ((scanString text).map fun read => (.string read.1, read.2)) := by
      rw [readValue.eq_def]
      rfl
    rw [Value.print_string_append, opened, scanString_print]
    rfl
  | @array items free ih =>
    obtain ⟨inner, rfl, room, fits⟩ := fits.array
    cases keyed with
    | array keyed =>
      have each : List.Forall₂ (Undoes (readValue values inner)) items items :=
        List.forall₂_same.2 fun item member => ⟨(free item member).legible,
          fun rest closes => ih item member (keyed item member) (fits item member) closes⟩
      have opened (text : Text) : readValue values (inner + 1) ('[' :: text) =
        (readList (readValue values inner) values text).map fun read =>
          (.array read.1, read.2) := rfl
      rw [Value.print_array_append, opened, readList_print each room]
      rfl
  | @object members free ih =>
    obtain ⟨inner, rfl, room, fits⟩ := fits.object
    cases keyed with
    | object distinct keyed =>
      have each : List.Forall₂ (fun m e => m.1 = e.1 ∧ Undoes (readValue values inner) m.2 e.2)
          members members :=
        List.forall₂_same.2 fun entry member => ⟨rfl, (free entry member).legible,
          fun rest closes => ih entry member (keyed entry member) (fits entry member) closes⟩
      have opened (text : Text) : readValue values (inner + 1) ('{' :: text) =
        (readEntries (readValue values inner) values text).map fun read =>
          (.object read.1, read.2) := rfl
      rw [Value.print_object_append, opened, readEntries_print each distinct room]
      rfl

/-- A value without floating-point numbers is read as it was printed. -/
theorem reads_value {v : Value} (free : v.FloatFree) (keyed : v.Keyed) :
    Reader.value.Reads v v :=
  fun _ _ fits => ⟨free.legible, fun _ closes => readValue_print free keyed fits closes⟩

end ApiSchema.Json
