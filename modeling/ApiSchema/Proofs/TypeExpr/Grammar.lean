import Mathlib.Data.List.Forall2
import ApiSchema.Proofs.TypeExpr.Arguments
import ApiSchema.Proofs.TypeExpr.Written
import ApiSchema.TypeExpr.Parse

/-!
# The grammar of type expressions

```
type    := base "[]"*
base    := name | name "#" format | name "<" segment ("," segment)* ">"
segment := blanks | blanks type blanks
```

`Derives text t` is a derivation of `text` by these rules, and `t` is the tree that it spells: one
array node for each `[]`, the arguments in order without the blank segments. The parser works from
the outside in, by suffixes, first marks and a count of brackets; `parse_eq_ok_iff` says that it
finds exactly the derivations.
-/

namespace ApiSchema

/-! ## Derivations -/

/-- What stands between two commas of an argument list: blanks, or an argument between blanks. -/
inductive Segment where
  | blank (text : Text)
  | argument (before core after : Text) (tree : TypeExpr)

namespace Segment

/-- The characters of a segment. -/
def text : Segment → Text
  | blank text => text
  | argument before core after _ => before ++ core ++ after

/-- The argument of a segment, without the blanks around it. -/
def core? : Segment → Option Text
  | blank _ => none
  | argument _ core _ _ => some core

/-- The tree of the argument of a segment. -/
def tree? : Segment → Option TypeExpr
  | blank _ => none
  | argument _ _ _ tree => some tree

/-- All that a segment holds beside its argument is blank. -/
def Padded : Segment → Prop
  | blank text => text.IsBlank
  | argument before _ after _ => before.IsBlank ∧ after.IsBlank

end Segment

/-- The tree of a name that stands alone: a primitive with its default format, or an object. -/
def TypeExpr.ofName (word : Text) : TypeExpr :=
  match Primitive.ofKeyword? word with
  | some kind => .primitive word kind kind.defaultFormat
  | none => .object word word []

/-- `Derives text t`: the rules of the grammar derive `text`, and the derivation is `t`. -/
inductive Derives : Text → TypeExpr → Prop
  | name {word : Text} : isIdentifier word = true → word ∉ metaWords →
    Derives word (.ofName word)
  | format {head format : Text} {kind : Primitive} : isIdentifier head = true →
    kind.keyword <+: head → isFormat format = true →
    Derives (head ++ '#' :: format) (.primitive (head ++ '#' :: format) kind format)
  | generic {head : Text} {segments : List Segment} : isIdentifier head = true →
    head ∉ reservedWords → (∀ s ∈ segments, s.Padded) →
    (∀ before core after tree, .argument before core after tree ∈ segments → Derives core tree) →
    segments.filterMap Segment.tree? ≠ [] →
    Derives (head ++ '<' :: Text.join [','] (segments.map Segment.text) ++ ['>'])
      (.object (head ++ '<' :: Text.join [','] (segments.map Segment.text) ++ ['>']) head
        (segments.filterMap Segment.tree?))
  | array {item : Text} {tree : TypeExpr} : Derives item tree →
    Derives (item ++ ['[', ']']) (.array (item ++ ['[', ']']) tree)

/-! ## Segments -/

namespace Segment

/-- The segment is blank, or an argument of which `R` holds stands between blanks. -/
def Holds (R : Text → TypeExpr → Prop) : Segment → Prop
  | blank text => text.IsBlank
  | argument before core after tree => before.IsBlank ∧ after.IsBlank ∧ R core tree

variable {R : Text → TypeExpr → Prop} {s : Segment} {segments : List Segment}

theorem forall_holds_iff :
    (∀ s ∈ segments, s.Holds R) ↔ (∀ s ∈ segments, s.Padded) ∧
      ∀ before core after tree, .argument before core after tree ∈ segments → R core tree := by
  constructor
  · intro holds
    refine ⟨fun s member => ?_, fun before core after tree member => (holds _ member).2.2⟩
    have own := holds s member
    cases s with
    | blank text => exact own
    | argument before core after tree => exact ⟨own.1, own.2.1⟩
  · intro ⟨padded, each⟩ s member
    have own := padded s member
    cases s with
    | blank text => exact own
    | argument before core after tree => exact ⟨own.1, own.2, each before core after tree member⟩

theorem Holds.imp {S : Text → TypeExpr → Prop} (holds : s.Holds R)
    (follows : ∀ core tree, R core tree → S core tree) : s.Holds S := by
  cases s with
  | blank text => exact holds
  | argument before core after tree => exact ⟨holds.1, holds.2.1, follows core tree holds.2.2⟩

/-- A segment behind one more blank. -/
def pad : Segment → Segment
  | blank text => blank (' ' :: text)
  | argument before core after tree => argument (' ' :: before) core after tree

theorem text_pad (s : Segment) : s.pad.text = ' ' :: s.text := by
  cases s <;> rfl

theorem tree?_pad (s : Segment) : s.pad.tree? = s.tree? := by
  cases s <;> rfl

theorem Holds.pad (holds : s.Holds R) : s.pad.Holds R := by
  have more : ∀ {text : Text}, text.IsBlank → Text.IsBlank (' ' :: text) := by
    intro text blank
    exact List.forall_mem_cons.2 ⟨by decide, blank⟩
  cases s with
  | blank text => exact more holds
  | argument before core after tree => exact ⟨more holds.1, holds.2⟩

end Segment

/-- The segments of an argument list may stand behind a comma and a blank. -/
theorem Derives.generic_spaced {head : Text} {segments : List Segment}
    (name : isIdentifier head = true) (free : head ∉ reservedWords)
    (holds : ∀ s ∈ segments, s.Holds Derives) (nonempty : segments.filterMap Segment.tree? ≠ []) :
    Derives (head ++ '<' :: Text.join [',', ' '] (segments.map Segment.text) ++ ['>'])
      (.object (head ++ '<' :: Text.join [',', ' '] (segments.map Segment.text) ++ ['>']) head
        (segments.filterMap Segment.tree?)) := by
  cases segments with
  | nil => exact absurd rfl nonempty
  | cons s segments =>
    have texts : Text.join [','] ((s :: segments.map Segment.pad).map Segment.text) =
        Text.join [',', ' '] ((s :: segments).map Segment.text) := by
      have same : Segment.text ∘ Segment.pad = (' ' :: ·) ∘ Segment.text :=
        funext Segment.text_pad
      rw [List.map_cons, List.map_cons, ← Text.join_comma_blank, List.map_map, List.map_map, same]
    have trees : (s :: segments.map Segment.pad).filterMap Segment.tree? =
        (s :: segments).filterMap Segment.tree? := by
      have same : Segment.tree? ∘ Segment.pad = Segment.tree? := funext Segment.tree?_pad
      rw [List.filterMap_cons, List.filterMap_cons, List.filterMap_map, same]
    obtain ⟨first, rest⟩ := List.forall_mem_cons.1 holds
    have spaced : ∀ padded ∈ s :: segments.map Segment.pad, padded.Holds Derives := by
      refine List.forall_mem_cons.2 ⟨first, fun padded member => ?_⟩
      obtain ⟨inner, listed, rfl⟩ := List.mem_map.1 member
      exact (rest inner listed).pad
    obtain ⟨padded, cores⟩ := Segment.forall_holds_iff.1 spaced
    rw [← texts, ← trees]
    exact .generic name free padded cores (trees.trans_ne nonempty)

/-! ## What derived texts look like -/

theorem TypeExpr.name_ofName (word : Text) : (TypeExpr.ofName word).name = word := by
  unfold TypeExpr.ofName
  split <;> rfl

/-- The tree of a derivation is named after the text that is derived. -/
theorem Derives.name_eq {text : Text} {t : TypeExpr} (derives : Derives text t) :
    t.name = text := by
  cases derives with
  | name => exact TypeExpr.name_ofName text
  | format => rfl
  | generic => rfl
  | array => rfl

theorem tight_of_identifier_append {head rest : Text} (name : isIdentifier head = true)
    (last : ∀ c ∈ rest.getLast?, isBlank c = false) : Text.Tight (head ++ rest) := by
  have chars := isIdentifierChar_of_mem name
  constructor
  · intro c member
    cases head with
    | nil => cases name
    | cons d head =>
      obtain rfl : d = c := Option.some.inj member
      exact isBlank_eq_false_of_isIdentifierChar (chars d (List.mem_cons_self ..))
  · intro c member
    rw [List.getLast?_append] at member
    cases ended : rest.getLast? with
    | some d =>
      rw [ended] at member
      obtain rfl : d = c := Option.some.inj member
      exact last d ended
    | none =>
      rw [ended] at member
      exact isBlank_eq_false_of_isIdentifierChar (chars c (List.mem_of_getLast? member))

/-- A derived text has neither blanks nor nothing at its ends. -/
theorem Derives.tight_and_ne_nil {text : Text} {t : TypeExpr} (derives : Derives text t) :
    text.Tight ∧ text ≠ [] := by
  induction derives with
  | name name _ =>
    refine ⟨?_, ne_nil_of_isIdentifier name⟩
    have tight := tight_of_identifier_append name (by simp : ∀ c ∈ ([] : Text).getLast?, _)
    rwa [List.append_nil] at tight
  | @format head format kind name _ formed =>
    refine ⟨tight_of_identifier_append name fun c member => ?_, by simp⟩
    rcases List.mem_cons.1 (List.mem_of_getLast? member) with rfl | member
    · decide
    · rcases isIdentifierChar_of_mem_format formed c member with hc | rfl
      · exact isBlank_eq_false_of_isIdentifierChar hc
      · decide
  | generic name =>
    refine ⟨?_, by simp⟩
    rw [List.append_assoc]
    refine tight_of_identifier_append name fun c member => ?_
    rw [List.getLast?_append] at member
    cases member
    decide
  | @array item tree _ ih =>
    obtain ⟨tight, nonempty⟩ := ih
    refine ⟨⟨fun c member => tight.head c ?_, fun c member => ?_⟩, by simp⟩
    · rwa [List.head?_append_of_ne_nil _ nonempty] at member
    · rw [List.getLast?_append] at member
      cases member
      decide

theorem Derives.tight {text : Text} {t : TypeExpr} (derives : Derives text t) : text.Tight :=
  derives.tight_and_ne_nil.1

theorem Derives.ne_nil {text : Text} {t : TypeExpr} (derives : Derives text t) : text ≠ [] :=
  derives.tight_and_ne_nil.2

theorem Derives.trim_eq {text : Text} {t : TypeExpr} (derives : Derives text t) :
    Text.trim text = text :=
  Text.trim_of_tight derives.tight

theorem passes_of_isIdentifier {word : Text} (name : isIdentifier word = true) : Passes 0 word :=
  passes_of_plain fun c member =>
    have hc := isIdentifierChar_of_mem name c member
    ⟨ne_of_isIdentifierChar hc (by decide), ne_of_isIdentifierChar hc (by decide),
      ne_of_isIdentifierChar hc (by decide)⟩

theorem passes_of_isBlank {text : Text} (blank : text.IsBlank) : Passes 0 text :=
  passes_of_plain fun c member => by
    have hc := blank c member
    refine ⟨?_, ?_, ?_⟩ <;> (rintro rfl; revert hc; decide)

theorem Segment.passes {segment : Segment} (holds : segment.Holds fun core _ => Passes 0 core) :
    Passes 0 segment.text := by
  cases segment with
  | blank text => exact passes_of_isBlank holds
  | argument before core after tree =>
    exact ((passes_of_isBlank holds.1).append holds.2.2).append (passes_of_isBlank holds.2.1)

/-- The brackets of a derived text pair up, and its commas stand inside of them. -/
theorem Derives.passes {text : Text} {t : TypeExpr} (derives : Derives text t) :
    Passes 0 text := by
  induction derives with
  | name name _ => exact passes_of_isIdentifier name
  | @format head format kind name _ formed =>
    refine (passes_of_isIdentifier name).append (passes_of_plain fun c member => ?_)
    rcases List.mem_cons.1 member with rfl | member
    · decide
    · rcases isIdentifierChar_of_mem_format formed c member with hc | rfl
      · exact ⟨ne_of_isIdentifierChar hc (by decide), ne_of_isIdentifierChar hc (by decide),
          ne_of_isIdentifierChar hc (by decide)⟩
      · decide
  | @generic head segments name _ padded _ _ ih =>
    rw [List.append_assoc]
    refine (passes_of_isIdentifier name).append (Passes.brackets (Passes.join fun p member => ?_))
    obtain ⟨segment, listed, rfl⟩ := List.mem_map.1 member
    exact segment.passes (Segment.forall_holds_iff.2 ⟨padded, ih⟩ segment listed)
  | array _ ih => exact ih.append (passes_of_plain (by simp))

end ApiSchema
