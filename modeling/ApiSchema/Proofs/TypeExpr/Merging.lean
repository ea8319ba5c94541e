import ApiSchema.Proofs.TypeExpr.Arguments

/-!
# Merging the pieces between commas

There is another way to cut an argument list. Cut it at every comma, then go through the pieces
from the left and join each with those behind it until it has as many `<` as `>`. This count starts
anew with each argument, while `cutAtCommas` keeps one surplus from the start of the list to its
end. `mergeFrom_splitOn` relates both on any text, however its brackets stand: the surplus is that
of the argument which is being read.

An argument is a text in `OnePiece`: balanced as a whole, and at none of its commas so far. Such
texts are found again in any list that they are joined to (`cutAtCommas_join_of_onePiece`), so the
arguments of a list are those of the list written anew (`splitArguments_splits_and_merges`).
-/

namespace ApiSchema

/-! ## The surplus of opening brackets -/

/-- The number of `<` less the number of `>`. -/
def surplus (text : Text) : Int :=
  text.count '<' - text.count '>'

theorem surplus_nil : surplus [] = 0 := rfl

theorem surplus_append (a b : Text) : surplus (a ++ b) = surplus a + surplus b := by
  unfold surplus
  rw [List.count_append, List.count_append]
  omega

theorem surplus_concat (text : Text) (c : Char) :
    surplus (text ++ [c]) = bracketDepth (surplus text) c := by
  have last : surplus [c] = bracketDepth 0 c := by
    unfold surplus bracketDepth
    rw [List.count_singleton, List.count_singleton]
    grind
  rw [surplus_append, last]
  unfold bracketDepth
  grind

theorem surplus_of_isBlank {text : Text} (blank : text.IsBlank) : surplus text = 0 := by
  have absent : ∀ c, isBlank c = false → text.count c = 0 := by
    intro c ink
    apply List.count_eq_zero.2
    intro member
    rw [blank c member] at ink
    cases ink
  unfold surplus
  rw [absent '<' (by decide), absent '>' (by decide)]
  rfl

/-! ## Splitting and merging -/

/-- True of a text with as many `<` as `>`. -/
def isBalanced (text : Text) : Bool :=
  text.count '<' == text.count '>'

theorem isBalanced_iff {text : Text} : isBalanced text = true ↔ surplus text = 0 := by
  unfold isBalanced surplus
  rw [beq_iff_eq]
  omega

/-- Joins a piece with the following ones, with the commas between them, until it is balanced, and
goes on with the next. Nothing if the pieces run out first. -/
def mergeFrom (piece : Text) : List Text → Option (List Text)
  | [] => if isBalanced piece then some [piece] else none
  | next :: rest =>
    if isBalanced piece then (mergeFrom next rest).map (piece :: ·)
    else mergeFrom (piece ++ ',' :: next) rest

/-- Merges pieces from the left. -/
def mergePieces : List Text → Option (List Text)
  | [] => some []
  | piece :: rest => mergeFrom piece rest

/-- The arguments inside a pair of brackets: the pieces between all commas, merged until they are
balanced, trimmed, and without the blank ones. -/
def splitAndMerge (inside : Text) : Option (List Text) :=
  (mergePieces (inside.splitOn ',')).map fun pieces =>
    (pieces.map Text.trim).filter (!·.isEmpty)

theorem exists_splitOn_eq_cons (text : Text) :
    ∃ piece rest, text.splitOn ',' = piece :: rest :=
  List.exists_cons_of_ne_nil (List.splitOn_ne_nil ',' text)

theorem splitOn_comma (text : Text) : (',' :: text).splitOn ',' = [] :: text.splitOn ',' := by
  rw [List.splitOn_eq_splitOnP, List.splitOnP_cons_eq_if_modifyHead, if_pos (by decide),
    ← List.splitOn_eq_splitOnP]

theorem splitOn_of_ne {c : Char} (other : c ≠ ',') {text piece : Text} {rest : List Text}
    (split : text.splitOn ',' = piece :: rest) :
    (c :: text).splitOn ',' = (c :: piece) :: rest := by
  rw [List.splitOn_eq_splitOnP] at split ⊢
  rw [List.splitOnP_cons_eq_if_modifyHead, if_neg (by simpa using other), split]
  rfl

/-- With `open` read of the argument at hand, cutting what follows and merging its pieces lead to
the same arguments. -/
theorem mergeFrom_splitOn {text piece : Text} {rest : List Text}
    (split : text.splitOn ',' = piece :: rest) (start : Text) :
    mergeFrom (start ++ piece) rest =
      (cutAtCommas (surplus start) text).map (start.foldr consFirst) := by
  induction text generalizing piece rest start with
  | nil =>
    rw [List.splitOn_nil] at split
    obtain ⟨rfl, rfl⟩ := List.cons.inj split
    rw [List.append_nil, mergeFrom, cutAtCommas]
    by_cases balanced : surplus start = 0
    · rw [if_pos (isBalanced_iff.2 balanced), if_pos balanced, Option.map_some, foldr_consFirst,
        List.append_nil]
    · rw [if_neg (mt isBalanced_iff.1 balanced), if_neg balanced, Option.map_none]
  | cons c text ih =>
    obtain ⟨next, others, later⟩ := exists_splitOn_eq_cons text
    by_cases comma : c = ','
    · rw [comma, splitOn_comma, later] at split
      obtain ⟨rfl, rfl⟩ := List.cons.inj split
      rw [List.append_nil, mergeFrom]
      by_cases balanced : surplus start = 0
      · -- the argument ends here, and the next one starts with nothing read
        have fresh := ih later []
        rw [List.nil_append, surplus_nil] at fresh
        rw [if_pos (isBalanced_iff.2 balanced), fresh, cutAtCommas, if_pos ⟨comma, balanced⟩,
          balanced, Option.map_map, Option.map_map]
        congr 1
        funext pieces
        simp [foldr_consFirst]
      · -- the comma stands inside of the argument
        have longer := ih later (start ++ [','])
        rw [List.append_assoc, List.singleton_append, surplus_concat] at longer
        rw [if_neg (mt isBalanced_iff.1 balanced), longer,
          cutAtCommas_cons_of_not_cut (fun cut => balanced cut.2), comma, Option.map_map]
        congr 1
        funext pieces
        rw [List.foldr_append]
        rfl
    · rw [splitOn_of_ne comma later] at split
      obtain ⟨rfl, rfl⟩ := List.cons.inj split
      have longer := ih later (start ++ [c])
      rw [List.append_assoc, List.singleton_append, surplus_concat] at longer
      rw [longer, cutAtCommas_cons_of_not_cut (fun cut => comma cut.1), Option.map_map]
      congr 1
      funext pieces
      rw [List.foldr_append]
      rfl

/-- On any text both ways of cutting agree. -/
theorem splitArguments_eq_splitAndMerge (inside : Text) :
    splitArguments inside = splitAndMerge inside := by
  obtain ⟨piece, rest, split⟩ := exists_splitOn_eq_cons inside
  have merged := mergeFrom_splitOn split []
  rw [List.nil_append, surplus_nil] at merged
  unfold splitArguments splitAndMerge
  rw [split, mergePieces, merged]
  simp

/-! ## Arguments in one piece -/

/-- A text that is balanced as a whole, and at none of its commas so far. -/
structure OnePiece (text : Text) : Prop where
  balanced : surplus text = 0
  uncut : ∀ front back, text = front ++ ',' :: back → surplus front ≠ 0

/-- The rest of a text in one piece is read up to its end, whatever follows. -/
theorem OnePiece.cutAtCommas_append (start : Text) {text : Text}
    (whole : OnePiece (start ++ text)) (behind : Text) :
    cutAtCommas (surplus start) (text ++ behind) =
      (cutAtCommas 0 behind).map (text.foldr consFirst) := by
  induction text generalizing start with
  | nil =>
    have closed := whole.balanced
    rw [List.append_nil] at closed
    rw [closed, List.nil_append]
    simp
  | cons c text ih =>
    have keep : ¬ (c = ',' ∧ surplus start = 0) := by
      rintro ⟨rfl, closed⟩
      exact whole.uncut start text rfl closed
    have longer : OnePiece ((start ++ [c]) ++ text) := by
      rwa [List.append_assoc, List.singleton_append]
    rw [List.cons_append, cutAtCommas_cons_of_not_cut keep, ← surplus_concat,
      ih (start ++ [c]) longer, Option.map_map]
    rfl

/-- Texts in one piece are found again between the commas. -/
theorem cutAtCommas_join_of_onePiece {pieces : List Text} (nonempty : pieces ≠ [])
    (whole : ∀ p ∈ pieces, OnePiece p) :
    cutAtCommas 0 (Text.join [','] pieces) = some pieces := by
  induction pieces with
  | nil => exact absurd rfl nonempty
  | cons p pieces ih =>
    obtain ⟨first, later⟩ := List.forall_mem_cons.1 whole
    have read := OnePiece.cutAtCommas_append [] first
    rw [surplus_nil] at read
    by_cases last : pieces = []
    · have ended := read []
      rw [List.append_nil, cutAtCommas, if_pos rfl, Option.map_some, foldr_consFirst,
        List.append_nil] at ended
      rw [last, Text.join_singleton, ended]
    · rw [Text.join_cons_of_ne_nil _ _ last, List.append_assoc, read, List.singleton_append,
        cutAtCommas, if_pos ⟨rfl, rfl⟩, ih last later, Option.map_some, Option.map_some,
        foldr_consFirst, List.append_nil]

/-- The pieces of a cut are texts in one piece. The first of them is the end of a text that was
read before, up to where it has no cut. -/
theorem onePiece_of_cutAtCommas (start : Text) {text piece : Text} {pieces : List Text}
    (cut : cutAtCommas (surplus start) text = some (piece :: pieces))
    (uncut : ∀ front back, start = front ++ ',' :: back → surplus front ≠ 0) :
    OnePiece (start ++ piece) ∧ ∀ p ∈ pieces, OnePiece p := by
  induction text generalizing start piece pieces with
  | nil =>
    unfold cutAtCommas at cut
    split at cut
    · rename_i closed
      cases cut
      rw [List.append_nil]
      exact ⟨⟨closed, uncut⟩, by simp⟩
    · cases cut
  | cons c text ih =>
    unfold cutAtCommas at cut
    split at cut
    · rename_i comma
      obtain ⟨later, cutLater, parts⟩ := Option.map_eq_some_iff.1 cut
      obtain ⟨rfl, rfl⟩ := List.cons.inj parts
      obtain ⟨nonempty, -⟩ := join_of_cutAtCommas cutLater
      obtain ⟨next, others, rfl⟩ := List.exists_cons_of_ne_nil nonempty
      rw [comma.2, ← surplus_nil] at cutLater
      obtain ⟨first, rest⟩ := ih [] cutLater (by simp)
      rw [List.append_nil]
      exact ⟨⟨comma.2, uncut⟩, List.forall_mem_cons.2 ⟨first, rest⟩⟩
    · rename_i keep
      obtain ⟨later, cutLater, parts⟩ := Option.map_eq_some_iff.1 cut
      obtain ⟨nonempty, -⟩ := join_of_cutAtCommas cutLater
      obtain ⟨next, others, rfl⟩ := List.exists_cons_of_ne_nil nonempty
      obtain ⟨rfl, rfl⟩ := List.cons.inj parts
      rw [← surplus_concat] at cutLater
      have uncut' : ∀ front back, start ++ [c] = front ++ ',' :: back → surplus front ≠ 0 := by
        intro front back same
        rcases List.eq_nil_or_concat back with rfl | ⟨back, d, rfl⟩
        · obtain ⟨rfl, comma⟩ := List.append_inj' same rfl
          intro closed
          exact keep ⟨(List.cons.inj comma).1, closed⟩
        · rw [List.concat_eq_append, ← List.cons_append, ← List.append_assoc] at same
          exact uncut front back (List.append_inj' same rfl).1
      have tail := ih (start ++ [c]) cutLater uncut'
      rwa [List.append_assoc, List.singleton_append] at tail

theorem OnePiece.of_cutAtCommas {text : Text} {pieces : List Text}
    (cut : cutAtCommas 0 text = some pieces) : ∀ p ∈ pieces, OnePiece p := by
  obtain ⟨nonempty, -⟩ := join_of_cutAtCommas cut
  obtain ⟨piece, rest, rfl⟩ := List.exists_cons_of_ne_nil nonempty
  obtain ⟨first, later⟩ := onePiece_of_cutAtCommas [] cut (by simp)
  exact List.forall_mem_cons.2 ⟨first, later⟩

/-- Blanks have no part in whether a text is one piece. -/
theorem OnePiece.trim {text : Text} (whole : OnePiece text) : OnePiece (Text.trim text) := by
  obtain ⟨before, after, hb, ha, split⟩ := Text.exists_trim_padding text
  constructor
  · have balanced := whole.balanced
    rw [split, surplus_append, surplus_append, surplus_of_isBlank hb, surplus_of_isBlank ha]
      at balanced
    omega
  · intro front back parts closed
    have here : text = (before ++ front) ++ ',' :: (back ++ after) := by
      rw [split, parts]
      simp
    apply whole.uncut _ _ here
    rw [surplus_append, surplus_of_isBlank hb, closed]
    rfl

theorem OnePiece.blank_cons {text : Text} (whole : OnePiece text) : OnePiece (' ' :: text) := by
  have shifted : ∀ text, surplus (' ' :: text) = surplus text := by
    intro text
    unfold surplus
    rw [List.count_cons_of_ne (by decide), List.count_cons_of_ne (by decide)]
  constructor
  · rw [shifted, whole.balanced]
  · intro front back parts
    cases front with
    | nil => cases parts
    | cons c front =>
      obtain ⟨rfl, rest⟩ := List.cons.inj parts
      rw [shifted]
      exact whole.uncut front back rest

/-! ## Writing a list anew -/

/-- The arguments of a list are texts in one piece, without blanks at their ends and not empty. -/
theorem onePiece_of_mem_splitArguments {inside argument : Text} {arguments : List Text}
    (divided : splitArguments inside = some arguments) (member : argument ∈ arguments) :
    OnePiece argument ∧ argument.Tight ∧ argument ≠ [] := by
  unfold splitArguments at divided
  obtain ⟨pieces, cut, rfl⟩ := Option.map_eq_some_iff.1 divided
  obtain ⟨listed, inked⟩ := List.mem_filter.1 member
  obtain ⟨piece, known, rfl⟩ := List.mem_map.1 listed
  refine ⟨(OnePiece.of_cutAtCommas cut piece known).trim, Text.tight_trim piece, ?_⟩
  intro empty
  rw [empty] at inked
  cases inked

/-- Arguments that are written with a comma and a blank between them are found again. -/
theorem splitArguments_join {arguments : List Text}
    (whole : ∀ a ∈ arguments, OnePiece a ∧ a.Tight ∧ a ≠ []) :
    splitArguments (Text.join [',', ' '] arguments) = some arguments := by
  cases arguments with
  | nil => rfl
  | cons first others =>
    have cut : cutAtCommas 0 (Text.join [','] (first :: others.map (' ' :: ·))) =
        some (first :: others.map (' ' :: ·)) := by
      apply cutAtCommas_join_of_onePiece (List.cons_ne_nil _ _)
      intro p member
      rcases List.mem_cons.1 member with rfl | later
      · exact (whole p (List.mem_cons_self ..)).1
      · obtain ⟨a, listed, rfl⟩ := List.mem_map.1 later
        exact (whole a (List.mem_cons_of_mem _ listed)).1.blank_cons
    have trimmed : (first :: others.map (' ' :: ·)).map Text.trim = first :: others := by
      have own : ∀ a ∈ first :: others, Text.trim (' ' :: a) = a := by
        intro a member
        have blank : Text.IsBlank [' '] := by
          intro c member
          rw [List.mem_singleton.1 member]
          rfl
        simpa using Text.trim_padded blank Text.isBlank_nil (whole a member).2.1
      have kept : others.map (Text.trim ∘ (' ' :: ·)) = others.map id :=
        List.map_congr_left fun a member => own a (List.mem_cons_of_mem _ member)
      rw [List.map_cons, Text.trim_of_tight (whole first (List.mem_cons_self ..)).2.1,
        List.map_map, kept, List.map_id]
    have inked : (first :: others).filter (!·.isEmpty) = first :: others := by
      apply List.filter_eq_self.2
      intro a member
      simpa using (whole a member).2.2
    unfold splitArguments
    rw [← Text.join_comma_blank, cut, Option.map_some, trimmed, inked]

/-- Cutting an argument list at the commas outside of brackets is the same as cutting it at all
commas and merging the pieces from the left until they are balanced, on every text. The arguments
that are found are found again where they are joined by a comma and a blank. -/
theorem splitArguments_splits_and_merges (inside : Text) :
    splitArguments inside = splitAndMerge inside ∧
      ∀ arguments, splitArguments inside = some arguments →
        splitArguments (Text.join [',', ' '] arguments) = some arguments := by
  refine ⟨splitArguments_eq_splitAndMerge inside, fun arguments divided => ?_⟩
  exact splitArguments_join fun a member => onePiece_of_mem_splitArguments divided member

/-- The first argument closes a bracket before it opens one. -/
theorem splitArguments_splits_and_merges_crossed :
    splitAndMerge "A>, <B ,, Map<K, V>[] ,".toList =
        some ["A>, <B".toList, "Map<K, V>[]".toList] ∧
      splitArguments "A>, <B, Map<K, V>[]".toList =
        some ["A>, <B".toList, "Map<K, V>[]".toList] := by
  obtain ⟨same, again⟩ := splitArguments_splits_and_merges "A>, <B ,, Map<K, V>[] ,".toList
  have divided : splitArguments "A>, <B ,, Map<K, V>[] ,".toList =
      some ["A>, <B".toList, "Map<K, V>[]".toList] := by decide +kernel
  rw [← same]
  exact ⟨divided, again _ divided⟩

/-- Where the pieces run out, there are no arguments. -/
example : splitAndMerge "A, B<C".toList = none := by decide +kernel

end ApiSchema
