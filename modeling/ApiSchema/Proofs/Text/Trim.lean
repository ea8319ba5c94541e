import Mathlib.Data.List.TakeWhile
import ApiSchema.Text.Blank

/-!
# Trimming and fixed endings

Trimming takes the blanks off both ends of a text and nothing else. `exists_trim_padding` puts the
blanks back around the trimmed part, and `trim_padded` takes them off again: a text that neither
starts nor ends in a blank is what remains of it between blanks. `stripEnd?_eq_some_iff` says the
same of a fixed ending.
-/

namespace ApiSchema

namespace Text

/-- A text of blanks only. -/
def IsBlank (text : Text) : Prop :=
  ∀ c ∈ text, isBlank c = true

/-- A text that neither starts nor ends in a blank. -/
structure Tight (text : Text) : Prop where
  head : ∀ c ∈ text.head?, isBlank c = false
  last : ∀ c ∈ text.getLast?, isBlank c = false

theorem isBlank_nil : IsBlank [] := by
  intro c member
  cases member

theorem IsBlank.append {a b : Text} (ha : a.IsBlank) (hb : b.IsBlank) : IsBlank (a ++ b) := by
  intro c member
  rcases List.mem_append.1 member with member | member
  · exact ha c member
  · exact hb c member

/-- No blanks are taken off the front of a text that does not start in one. -/
theorem dropWhile_isBlank_eq_self {text : Text}
    (head : ∀ c ∈ text.head?, isBlank c = false) :
    text.dropWhile isBlank = text := by
  cases text with
  | nil => rfl
  | cons c rest =>
    have first : isBlank c = false := head c rfl
    rw [List.dropWhile_cons, if_neg (by simp [first])]

theorem trimEnd_append_of_isBlank {text after : Text} (blank : after.IsBlank)
    (last : ∀ c ∈ text.getLast?, isBlank c = false) :
    trimEnd (text ++ after) = text := by
  have blank' : ∀ c ∈ after.reverse, isBlank c = true := by
    intro c member
    exact blank c (List.mem_reverse.1 member)
  rw [trimEnd, List.reverse_append, List.dropWhile_append_of_pos blank',
    dropWhile_isBlank_eq_self (by rwa [List.head?_reverse]), List.reverse_reverse]

/-- Blanks around a text that has none at its own ends are exactly what trimming takes off. -/
theorem trim_padded {before core after : Text} (hb : before.IsBlank) (ha : after.IsBlank)
    (tight : core.Tight) : trim (before ++ core ++ after) = core := by
  cases core with
  | nil =>
    have dropped : (before ++ [] ++ after).dropWhile isBlank = [] := by
      rw [List.dropWhile_eq_nil_iff, List.append_nil]
      exact hb.append ha
    rw [trim, dropped]
    rfl
  | cons c rest =>
    rw [trim, List.append_assoc, List.dropWhile_append_of_pos hb,
      dropWhile_isBlank_eq_self (by simpa using tight.head c rfl),
      trimEnd_append_of_isBlank ha tight.last]

theorem trim_of_tight {text : Text} (tight : text.Tight) : trim text = text := by
  simpa using trim_padded isBlank_nil isBlank_nil tight

theorem tight_nil : Tight [] :=
  ⟨by simp, by simp⟩

theorem trim_of_isBlank {text : Text} (blank : text.IsBlank) : trim text = [] := by
  simpa using trim_padded isBlank_nil blank tight_nil

/-- What trimming takes off the end is blank. -/
theorem exists_trimEnd_padding (text : Text) :
    ∃ after : Text, after.IsBlank ∧ text = trimEnd text ++ after := by
  refine ⟨(text.reverse.takeWhile isBlank).reverse, ?_, ?_⟩
  · intro c member
    exact List.mem_takeWhile_imp (List.mem_reverse.1 member)
  · rw [trimEnd, ← List.reverse_append, List.takeWhile_append_dropWhile, List.reverse_reverse]

/-- A text is its trimmed part between two runs of blanks. -/
theorem exists_trim_padding (text : Text) :
    ∃ before after : Text, before.IsBlank ∧ after.IsBlank ∧
      text = before ++ trim text ++ after := by
  obtain ⟨after, blank, split⟩ := exists_trimEnd_padding (text.dropWhile isBlank)
  refine ⟨text.takeWhile isBlank, after, fun c => List.mem_takeWhile_imp, blank, ?_⟩
  rw [List.append_assoc, trim, ← split, List.takeWhile_append_dropWhile]

theorem isInfix_trim (text : Text) : trim text <:+: text := by
  obtain ⟨before, after, -, -, split⟩ := exists_trim_padding text
  exact ⟨before, after, split.symm⟩

/-- Trimming leaves no blank at either end. -/
theorem tight_trim (text : Text) : Tight (trim text) := by
  constructor
  · intro c member
    obtain ⟨after, -, split⟩ := exists_trimEnd_padding (text.dropWhile isBlank)
    -- what is cut off the end does not change the start
    have start : (text.dropWhile isBlank).head? = some c := by
      obtain ⟨rest, whole⟩ := List.head?_eq_some_iff.1 member
      rw [split, ← trim, whole]
      rfl
    have stop := List.head?_dropWhile_not isBlank text
    rw [start] at stop
    exact stop
  · intro c member
    rw [trim, trimEnd, List.getLast?_reverse] at member
    have stop := List.head?_dropWhile_not isBlank (text.dropWhile isBlank).reverse
    rw [member] at stop
    exact stop

theorem isBlank_of_trim_eq_nil {text : Text} (trimmed : trim text = []) : text.IsBlank := by
  obtain ⟨before, after, hb, ha, split⟩ := exists_trim_padding text
  rw [split, trimmed, List.append_nil]
  exact hb.append ha

/-! ## Fixed endings -/

theorem stripEnd?_append (start ending : Text) :
    stripEnd? ending (start ++ ending) = some start := by
  rw [stripEnd?, if_pos (List.isSuffixOf_iff_suffix.2 (List.suffix_append _ _))]
  simp

theorem stripEnd?_eq_some_iff {ending text start : Text} :
    stripEnd? ending text = some start ↔ text = start ++ ending := by
  constructor
  · intro stripped
    unfold stripEnd? at stripped
    split at stripped
    · rename_i suffix
      obtain ⟨front, rfl⟩ := List.isSuffixOf_iff_suffix.1 suffix
      rw [List.length_append, Nat.add_sub_cancel, List.take_left] at stripped
      rw [Option.some.inj stripped]
    · cases stripped
  · rintro rfl
    exact stripEnd?_append start ending

theorem stripEnd?_eq_none {ending text : Text} (other : ∀ start, text ≠ start ++ ending) :
    stripEnd? ending text = none := by
  cases stripped : stripEnd? ending text with
  | none => rfl
  | some start => exact (other start (stripEnd?_eq_some_iff.1 stripped)).elim

end Text

end ApiSchema
