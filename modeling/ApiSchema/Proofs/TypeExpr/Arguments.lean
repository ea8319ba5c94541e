import ApiSchema.Proofs.Text.Trim
import ApiSchema.TypeExpr.Level

/-!
# Cutting an argument list

`cutAtCommas` keeps one count of open brackets, which may fall below zero. On the texts that type
expressions are made of it never does: `Passes least text` says that a reading that meets `text`
with at least `least` brackets open cuts nowhere in it and leaves with the count it came with.
What passes can stand between two commas, so the pieces of a list of such texts are found again
(`cutAtCommas_join`); conversely pieces joined by commas always give back the text they were cut
from (`join_of_cutAtCommas`).
-/

namespace ApiSchema

/-! ## Joining -/

namespace Text

@[simp]
theorem join_nil (separator : Text) : join separator [] = [] := rfl

@[simp]
theorem join_singleton (separator part : Text) : join separator [part] = part := by
  simp [join]

@[simp]
theorem join_cons_cons (separator part next : Text) (parts : List Text) :
    join separator (part :: next :: parts) =
      part ++ separator ++ join separator (next :: parts) := by
  simp [join]

theorem join_cons_of_ne_nil (separator part : Text) {parts : List Text} (nonempty : parts ≠ []) :
    join separator (part :: parts) = part ++ separator ++ join separator parts := by
  cases parts with
  | nil => exact absurd rfl nonempty
  | cons next parts => exact join_cons_cons ..

theorem join_cons_append (separator start part : Text) (parts : List Text) :
    join separator ((start ++ part) :: parts) = start ++ join separator (part :: parts) := by
  cases parts with
  | nil => simp
  | cons next parts => simp [List.append_assoc]

/-- The blank behind a comma can be counted to the part that follows. -/
theorem join_comma_blank (part : Text) (parts : List Text) :
    join [','] (part :: parts.map (' ' :: ·)) = join [',', ' '] (part :: parts) := by
  induction parts generalizing part with
  | nil => simp
  | cons next parts ih =>
    have rest : join [','] ((' ' :: next) :: parts.map (' ' :: ·)) =
        ' ' :: join [',', ' '] (next :: parts) := by
      rw [← ih next]
      exact join_cons_append [','] [' '] next _
    rw [List.map_cons, join_cons_cons, join_cons_cons, rest]
    simp

theorem mem_join {separator : Text} {parts : List Text} {c : Char}
    (member : c ∈ join separator parts) : c ∈ separator ∨ ∃ part ∈ parts, c ∈ part := by
  induction parts with
  | nil => cases member
  | cons part parts ih =>
    by_cases last : parts = []
    · rw [last, join_singleton] at member
      exact Or.inr ⟨part, List.mem_cons_self .., member⟩
    · rw [join_cons_of_ne_nil separator part last] at member
      rcases List.mem_append.1 member with member | member
      · rcases List.mem_append.1 member with inside | between
        · exact Or.inr ⟨part, List.mem_cons_self .., inside⟩
        · exact Or.inl between
      · refine (ih member).imp_right ?_
        intro ⟨other, listed, inside⟩
        exact ⟨other, List.mem_cons_of_mem _ listed, inside⟩

theorem infix_join_of_mem (separator : Text) {part : Text} {parts : List Text}
    (member : part ∈ parts) : part <:+: join separator parts := by
  induction parts with
  | nil => cases member
  | cons first parts ih =>
    by_cases last : parts = []
    · rw [last] at member ⊢
      obtain rfl := List.mem_singleton.1 member
      exact ⟨[], [], by simp⟩
    · rw [join_cons_of_ne_nil _ _ last, List.append_assoc]
      rcases List.mem_cons.1 member with rfl | later
      · exact (List.prefix_append _ _).isInfix
      · exact (ih later).trans ((List.suffix_append _ _).trans (List.suffix_append _ _)).isInfix

end Text

/-! ## Texts that are read without a cut -/

theorem foldr_consFirst (text piece : Text) (pieces : List Text) :
    text.foldr consFirst (piece :: pieces) = (text ++ piece) :: pieces := by
  induction text with
  | nil => rfl
  | cons c rest ih => rw [List.foldr_cons, ih]; rfl

/-- Read with at least `least` brackets open, the text is not cut and every bracket that it opens
it closes again. -/
def Passes (least : Int) (text : Text) : Prop :=
  ∀ depth : Int, least ≤ depth → ∀ rest : Text,
    cutAtCommas depth (text ++ rest) = (cutAtCommas depth rest).map (text.foldr consFirst)

theorem passes_nil (least : Int) : Passes least [] := by
  intro depth _ rest
  simp

theorem Passes.mono {least more : Int} {text : Text} (le : least ≤ more)
    (passes : Passes least text) : Passes more text := by
  intro depth bound rest
  exact passes depth (Int.le_trans le bound) rest

theorem Passes.append {least : Int} {a b : Text} (ha : Passes least a) (hb : Passes least b) :
    Passes least (a ++ b) := by
  intro depth bound rest
  rw [List.append_assoc, ha depth bound, hb depth bound, Option.map_map]
  congr 1
  funext pieces
  rw [List.foldr_append, Function.comp_apply]

theorem cutAtCommas_cons_of_not_cut {depth : Int} {c : Char} (keep : ¬ (c = ',' ∧ depth = 0))
    (rest : Text) :
    cutAtCommas depth (c :: rest) =
      (cutAtCommas (bracketDepth depth c) rest).map (consFirst c) := by
  rw [cutAtCommas, if_neg keep]

/-- A text without brackets and commas passes. -/
theorem passes_of_plain {text : Text} (plain : ∀ c ∈ text, c ≠ '<' ∧ c ≠ '>' ∧ c ≠ ',') :
    Passes 0 text := by
  intro depth bound rest
  induction text with
  | nil => simp
  | cons c text ih =>
    obtain ⟨notOpen, notClose, notComma⟩ := plain c (List.mem_cons_self ..)
    have same : bracketDepth depth c = depth := by
      rw [bracketDepth, if_neg notOpen, if_neg notClose]
    rw [List.cons_append, cutAtCommas_cons_of_not_cut (fun cut => notComma cut.1), same,
      ih (fun d member => plain d (List.mem_cons_of_mem _ member)), Option.map_map]
    rfl

/-- Inside of brackets a comma cuts nothing. -/
theorem passes_comma : Passes 1 [','] := by
  intro depth bound rest
  have keep : ¬ (',' = ',' ∧ depth = 0) := by omega
  rw [List.singleton_append, cutAtCommas_cons_of_not_cut keep]
  rfl

/-- What passes with one bracket open passes anywhere between a pair of brackets. -/
theorem Passes.brackets {inside : Text} (passes : Passes 1 inside) :
    Passes 0 ('<' :: inside ++ ['>']) := by
  intro depth bound rest
  have opened : bracketDepth depth '<' = depth + 1 := rfl
  have closed : bracketDepth (depth + 1) '>' = depth := by
    show depth + 1 - 1 = depth
    omega
  rw [List.cons_append, List.cons_append, cutAtCommas_cons_of_not_cut (by simp), opened,
    List.append_assoc, passes (depth + 1) (by omega), List.singleton_append,
    cutAtCommas_cons_of_not_cut (by simp), closed, Option.map_map, Option.map_map]
  congr 1
  funext pieces
  rw [List.foldr_cons, List.foldr_append]
  rfl

theorem Passes.join {pieces : List Text} (passes : ∀ p ∈ pieces, Passes 0 p) :
    Passes 1 (Text.join [','] pieces) := by
  induction pieces with
  | nil => exact passes_nil 1
  | cons p pieces ih =>
    have first : Passes 1 p := (passes p (List.mem_cons_self ..)).mono (by decide)
    cases pieces with
    | nil => simpa using first
    | cons q pieces =>
      rw [Text.join_cons_cons]
      exact (first.append passes_comma).append
        (ih fun r member => passes r (List.mem_cons_of_mem _ member))

/-! ## The pieces of a list -/

/-- Pieces that pass are found again between the commas. -/
theorem cutAtCommas_join {pieces : List Text} (nonempty : pieces ≠ [])
    (passes : ∀ p ∈ pieces, Passes 0 p) :
    cutAtCommas 0 (Text.join [','] pieces) = some pieces := by
  induction pieces with
  | nil => exact absurd rfl nonempty
  | cons p pieces ih =>
    have first : Passes 0 p := passes p (List.mem_cons_self ..)
    cases pieces with
    | nil =>
      have last := first 0 (Int.le_refl 0) []
      rw [List.append_nil] at last
      rw [Text.join_singleton, last, cutAtCommas, if_pos rfl, Option.map_some, foldr_consFirst,
        List.append_nil]
    | cons q pieces =>
      have rest := ih (by simp) fun r member => passes r (List.mem_cons_of_mem _ member)
      rw [Text.join_cons_cons, List.append_assoc, first 0 (Int.le_refl 0), List.singleton_append,
        cutAtCommas, if_pos ⟨rfl, rfl⟩, rest, Option.map_some, Option.map_some, foldr_consFirst,
        List.append_nil]

theorem join_consFirst (c : Char) (pieces : List Text) :
    Text.join [','] (consFirst c pieces) = c :: Text.join [','] pieces := by
  cases pieces with
  | nil => simp [consFirst]
  | cons p pieces => cases pieces <;> simp [consFirst]

theorem consFirst_ne_nil (c : Char) (pieces : List Text) : consFirst c pieces ≠ [] := by
  cases pieces <;> simp [consFirst]

/-- Nothing is lost by cutting: the commas put the pieces together again. -/
theorem join_of_cutAtCommas {depth : Int} {text : Text} {pieces : List Text}
    (cut : cutAtCommas depth text = some pieces) :
    pieces ≠ [] ∧ Text.join [','] pieces = text := by
  induction text generalizing depth pieces with
  | nil =>
    rw [cutAtCommas] at cut
    split at cut
    · cases cut
      simp
    · cases cut
  | cons c rest ih =>
    rw [cutAtCommas] at cut
    split at cut
    · rename_i comma
      obtain ⟨later, cutRest, rfl⟩ := Option.map_eq_some_iff.1 cut
      obtain ⟨nonempty, joined⟩ := ih cutRest
      refine ⟨List.cons_ne_nil _ _, ?_⟩
      rw [Text.join_cons_of_ne_nil _ _ nonempty, joined, comma.1]
      rfl
    · obtain ⟨later, cutRest, rfl⟩ := Option.map_eq_some_iff.1 cut
      obtain ⟨-, joined⟩ := ih cutRest
      exact ⟨consFirst_ne_nil c later, by rw [join_consFirst, joined]⟩

/-- An argument stands in the list that it is cut from, and is trimmed. -/
theorem tight_and_infix_of_mem_splitArguments {inside argument : Text} {arguments : List Text}
    (divided : splitArguments inside = some arguments) (member : argument ∈ arguments) :
    argument.Tight ∧ argument <:+: inside := by
  unfold splitArguments at divided
  obtain ⟨pieces, cut, rfl⟩ := Option.map_eq_some_iff.1 divided
  obtain ⟨-, rfl⟩ := join_of_cutAtCommas cut
  obtain ⟨piece, listed, rfl⟩ := List.mem_map.1 (List.mem_filter.1 member).1
  refine ⟨Text.tight_trim piece, ?_⟩
  exact (Text.isInfix_trim piece).trans (Text.infix_join_of_mem [','] listed)

end ApiSchema
