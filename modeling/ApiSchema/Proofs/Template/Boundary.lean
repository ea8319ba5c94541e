import Mathlib.Logic.Function.Iterate
import ApiSchema.Proofs.Template.Substitution
import ApiSchema.Proofs.Token.Spacing

/-!
# Searching for parameters between boundaries

Parameters can also be marked without scanning: the text is searched for the name of a parameter,
and an occurrence counts if the characters next to it are boundaries. `MarkedInTurn` does so for
one parameter after the other, and repeats the search for each until nothing changes.

Boundaries are no word characters, so what is found is a whole word. `Token.mapNames` is the same
search on pieces, where the marks next to a word decide; it finds all there is to find at once, for
all parameters (`Token.markedInTurn`).
-/

namespace ApiSchema

/-! ## Searching between boundaries -/

/-- A name may start behind this character. -/
def opensName (c : Char) : Bool :=
  c == ',' || c == '<' || isBlank c

/-- A name may end in front of this character. -/
def closesName (c : Char) : Bool :=
  c == ',' || c == '>' || c == '[' || isBlank c

/-- A name may end in front of this character, be it given arguments or not. -/
def closesNameOrHead (c : Char) : Bool :=
  closesName c || c == '<'

/-- Writes the placeholder for each occurrence of the name between boundaries: behind the start or a
character that opens a name, and in front of the end or a character that closes one. -/
def markOccurrences (closes : Char → Bool) (name : Text) (before : Option Char) : Text → Text
  | [] => []
  | c :: rest =>
    if name ≠ [] ∧ name.isPrefixOf (c :: rest) ∧ before.all opensName ∧
        (rest.drop (name.length - 1)).head?.all closes then
      placeholder name ++ markOccurrences closes name name.getLast? (rest.drop (name.length - 1))
    else
      c :: markOccurrences closes name (some c) rest
termination_by text => text.length
decreasing_by
  · simp only [List.length_drop, List.length_cons]; omega
  · simp

/-- One pass: blanks go, occurrences are marked, and a blank is put behind each comma. -/
def markPass (closes : Char → Bool) (name type : Text) : Text :=
  Text.spaceCommas (markOccurrences closes name none (Text.withoutBlanks type))

/-- Repeated from `start` on, `f` comes to rest at `result`. -/
def RestsAt (f : Text → Text) (start result : Text) : Prop :=
  f result = result ∧ ∃ n, f^[n] start = result

/-- Passes for each of the parameters in order, as long as they change anything, lead from `type` to
`result`. -/
def MarkedInTurn (closes : Char → Bool) : List Text → Text → Text → Prop
  | [], type, result => result = type
  | parameter :: parameters, type, result =>
    ∃ middle, RestsAt (markPass closes parameter) type middle ∧
      MarkedInTurn closes parameters middle result

theorem RestsAt.unique {f : Text → Text} {start a b : Text} (ha : RestsAt f start a)
    (hb : RestsAt f start b) : a = b := by
  obtain ⟨fixedA, n, rfl⟩ := ha
  obtain ⟨fixedB, m, rfl⟩ := hb
  calc f^[n] start = f^[m] (f^[n] start) := (Function.iterate_fixed fixedA m).symm
    _ = f^[n] (f^[m] start) := by
      rw [← Function.iterate_add_apply, ← Function.iterate_add_apply, Nat.add_comm]
    _ = f^[m] start := Function.iterate_fixed fixedB n

theorem MarkedInTurn.unique {closes : Char → Bool} {parameters : List Text} {type a b : Text}
    (ha : MarkedInTurn closes parameters type a) (hb : MarkedInTurn closes parameters type b) :
    a = b := by
  induction parameters generalizing type with
  | nil => exact ha.trans hb.symm
  | cons parameter parameters ih =>
    obtain ⟨middle, rests, ha⟩ := ha
    obtain ⟨other, restsOther, hb⟩ := hb
    rw [restsOther.unique rests] at hb
    exact ih ha hb

/-! ## Boundaries are no word characters -/

theorem beq_eq_false_of_isWordChar {c d : Char} (hc : isWordChar c = true)
    (hd : isWordChar d = false) : (c == d) = false := by
  rw [beq_eq_false_iff_ne]
  rintro rfl
  rw [hc] at hd
  cases hd

theorem opensName_eq_false {c : Char} (hc : isWordChar c = true) : opensName c = false := by
  rw [opensName, beq_eq_false_of_isWordChar hc (by decide : isWordChar ',' = false),
    beq_eq_false_of_isWordChar hc (by decide : isWordChar '<' = false),
    isBlank_eq_false_of_isWordChar hc]
  rfl

theorem closesNameOrHead_eq_false {c : Char} (hc : isWordChar c = true) :
    closesNameOrHead c = false := by
  rw [closesNameOrHead, closesName,
    beq_eq_false_of_isWordChar hc (by decide : isWordChar ',' = false),
    beq_eq_false_of_isWordChar hc (by decide : isWordChar '>' = false),
    beq_eq_false_of_isWordChar hc (by decide : isWordChar '[' = false),
    beq_eq_false_of_isWordChar hc (by decide : isWordChar '<' = false),
    isBlank_eq_false_of_isWordChar hc]
  rfl

theorem closesName_eq_false {c : Char} (hc : isWordChar c = true) : closesName c = false :=
  (Bool.or_eq_false_iff.1 (closesNameOrHead_eq_false hc)).1

theorem isWord_placeholder {name : Text} (isWord : IsWord name) : IsWord (placeholder name) := by
  refine ⟨by simp [placeholder], fun c member => ?_⟩
  rcases List.mem_append.1 member with inside | last
  · rcases List.mem_cons.1 inside with rfl | inner
    · decide
    · exact isWord.chars c inner
  · rw [List.mem_singleton.1 last]
    decide

/-! ## Occurrences are words -/

section Occurrences

variable {closes : Char → Bool} {name : Text}

/-- Inside of a word no name starts. -/
theorem markOccurrences_inside {c : Char} (unopened : opensName c = false) {w : Text}
    (chars : ∀ d ∈ w, isWordChar d = true) (rest : Text) :
    markOccurrences closes name (some c) (w ++ rest) =
      w ++ markOccurrences closes name (c :: w).getLast? rest := by
  induction w generalizing c with
  | nil => rfl
  | cons d w ih =>
    obtain ⟨first, later⟩ := List.forall_mem_cons.1 chars
    have blocked : (some c).all opensName = false := unopened
    rw [List.cons_append, markOccurrences, blocked, if_neg (by simp),
      ih (opensName_eq_false first) later, List.getLast?_cons_cons, List.cons_append]

variable (wordless : ∀ c, isWordChar c = true → closes c = false)

include wordless

/-- What occurs at the start of a word and ends at a boundary is the whole word. -/
theorem eq_word_of_occurrence {w rest : Text} (nameChars : ∀ c ∈ name, isWordChar c = true)
    (chars : ∀ c ∈ w, isWordChar c = true) (stop : ∀ c ∈ rest.head?, isWordChar c = false)
    (start : name <+: w ++ rest) (closed : ((w ++ rest).drop name.length).head?.all closes = true) :
    w = name := by
  induction name generalizing w with
  | nil =>
    cases w with
    | nil => rfl
    | cons d w =>
      have inner : closes d = true := closed
      rw [wordless d (chars d (List.mem_cons_self ..))] at inner
      cases inner
  | cons c name ih =>
    obtain ⟨first, later⟩ := List.forall_mem_cons.1 nameChars
    cases w with
    | nil =>
      -- the name would go on where no word does
      obtain ⟨behind, rfl⟩ := start
      rw [stop c rfl] at first
      cases first
    | cons d w =>
      obtain ⟨rfl, inner⟩ := List.cons_prefix_cons.1 start
      rw [ih later (List.forall_mem_cons.1 chars).2 inner closed]

/-- A word is marked if it is the name and stands between boundaries. -/
theorem markOccurrences_word (isName : IsWord name) {w rest : Text} (isWord : IsWord w)
    (stop : ∀ c ∈ rest.head?, isWordChar c = false) (before : Option Char) :
    markOccurrences closes name before (w ++ rest) =
      (if w = name ∧ before.all opensName = true ∧ rest.head?.all closes = true
        then placeholder name else w) ++ markOccurrences closes name w.getLast? rest := by
  obtain ⟨nonempty, chars⟩ := isWord
  obtain ⟨c, w, rfl⟩ := List.exists_cons_of_ne_nil nonempty
  rw [List.cons_append, markOccurrences]
  by_cases found : c :: w = name ∧ before.all opensName = true ∧ rest.head?.all closes = true
  · obtain ⟨rfl, opened, closed⟩ := found
    have start : (c :: w).isPrefixOf (c :: (w ++ rest)) = true :=
      List.isPrefixOf_iff_prefix.2 ⟨rest, rfl⟩
    have behind : (w ++ rest).drop ((c :: w).length - 1) = rest := by simp
    rw [behind, if_pos ⟨nonempty, start, opened, closed⟩, if_pos ⟨rfl, opened, closed⟩]
  · rw [if_neg found, if_neg, List.cons_append]
    · obtain ⟨first, later⟩ := List.forall_mem_cons.1 chars
      rw [markOccurrences_inside (opensName_eq_false first) later]
    · rintro ⟨proper, start, opened, closed⟩
      obtain ⟨d, name, rfl⟩ := List.exists_cons_of_ne_nil proper
      have same : c :: w = d :: name := eq_word_of_occurrence wordless isName.chars chars stop
        (List.isPrefixOf_iff_prefix.1 start) closed
      cases same
      refine found ⟨rfl, opened, ?_⟩
      simpa using closed

end Occurrences

/-! ## The search on pieces -/

/-- The placeholder for a parameter, and any other word as it is. -/
def marked (parameters : List Text) (w : Text) : Text :=
  if w ∈ parameters then placeholder w else w

theorem isWord_marked {parameters : List Text} {w : Text} (isWord : IsWord w) :
    IsWord (marked parameters w) := by
  unfold marked
  split
  · exact isWord_placeholder isWord
  · exact isWord

theorem marked_nil (w : Text) : marked [] w = w :=
  if_neg List.not_mem_nil

theorem marked_eq_self_iff {parameters : List Text} {w : Text} :
    marked parameters w = w ↔ w ∉ parameters := by
  unfold marked
  split
  · rename_i member
    refine ⟨fun same => ?_, fun other => absurd member other⟩
    have length := congrArg List.length same
    simp only [placeholder, List.length_append, List.length_cons, List.length_nil] at length
    omega
  · rename_i other
    exact ⟨fun _ => other, fun _ => rfl⟩

/-- A placeholder is no identifier, so it is not marked again. -/
theorem marked_marked {parameter : Text} {parameters : List Text}
    (names : ∀ p ∈ parameters, isIdentifier p = true) (w : Text) :
    marked parameters (marked [parameter] w) = marked (parameter :: parameters) w := by
  have plain : placeholder w ∉ parameters := fun member =>
    not_mem_of_isIdentifier (names _ member) (by decide : isIdentifierChar '«' = false)
      (List.mem_cons_self ..)
  by_cases same : w = parameter
  · subst same
    rw [marked, marked, marked, if_pos (List.mem_singleton_self _), if_neg plain,
      if_pos (List.mem_cons_self ..)]
  · have other : marked [parameter] w = w := if_neg (by simpa using same)
    rw [other, marked, marked]
    simp [same]

namespace Token

/-- True if a name may end in front of the pieces. -/
def startsClosed (closes : Char → Bool) : List Token → Bool
  | [] => true
  | mark c :: _ => closes c
  | word _ :: _ => false

/-- Puts the images of words in the places of those between boundaries. The flag says whether a name
may start in front of the pieces. -/
def mapNames (closes : Char → Bool) (image : Text → Text) (opened : Bool) :
    List Token → List Token
  | [] => []
  | mark c :: rest => mark c :: mapNames closes image (opensName c) rest
  | word w :: rest =>
    word (if opened && startsClosed closes rest then image w else w) ::
      mapNames closes image false rest

section

variable {closes : Char → Bool} {image : Text → Text} {opened : Bool} {tokens : List Token}

theorem startsClosed_mapNames :
    startsClosed closes (mapNames closes image opened tokens) = startsClosed closes tokens := by
  cases tokens with
  | nil => rfl
  | cons token rest => cases token <;> rfl

theorem startsWithWord_mapNames :
    startsWithWord (mapNames closes image opened tokens) = startsWithWord tokens := by
  cases tokens with
  | nil => rfl
  | cons token rest => cases token <;> rfl

/-- Placeholders are words, so marking keeps pieces apart. -/
theorem Separated.mapMarked (separated : Separated tokens) (closes : Char → Bool)
    (parameters : List Text) (opened : Bool) :
    Separated (mapNames closes (marked parameters) opened tokens) := by
  induction separated generalizing opened with
  | nil => exact .nil
  | mark isMark _ ih => exact .mark isMark (ih _)
  | @word w rest isWord unworded _ ih =>
    refine .word ?_ (startsWithWord_mapNames.trans unworded) (ih false)
    split
    · exact isWord_marked isWord
    · exact isWord

/-- What is put in for words does not change what they stand between. -/
theorem mapNames_mapNames (outer image : Text → Text) (opened : Bool) (tokens : List Token) :
    mapNames closes outer opened (mapNames closes image opened tokens) =
      mapNames closes (fun w => outer (image w)) opened tokens := by
  induction tokens generalizing opened with
  | nil => rfl
  | cons token rest ih =>
    cases token with
    | mark c => rw [mapNames, mapNames, mapNames, ih]
    | word w =>
      rw [mapNames, mapNames, mapNames, ih, startsClosed_mapNames]
      split <;> rfl

theorem mapNames_marked_nil (opened : Bool) (tokens : List Token) :
    mapNames closes (marked []) opened tokens = tokens := by
  induction tokens generalizing opened with
  | nil => rfl
  | cons token rest ih =>
    cases token with
    | mark c => rw [mapNames, ih]
    | word w => rw [mapNames, ih, marked_nil, ite_self]

end

/-! ## Passes on the text of pieces -/

theorem withoutBlanks_render_mark {c : Char} (isMark : isMark c = true) (rest : List Token) :
    Text.withoutBlanks (render (mark c :: rest)) = c :: Text.withoutBlanks (render rest) := by
  rw [render_cons, text_mark_eq_spaceCommas, Text.withoutBlanks_append,
    Text.withoutBlanks_spaceCommas,
    Text.withoutBlanks_cons_of_ink (isBlank_eq_false_of_isMark isMark)]
  rfl

theorem withoutBlanks_render_word {w : Text} (isWord : IsWord w) (rest : List Token) :
    Text.withoutBlanks (render (word w :: rest)) = w ++ Text.withoutBlanks (render rest) := by
  rw [render_cons, text, Text.withoutBlanks_append, Text.withoutBlanks_of_word isWord.chars]

theorem isWordChar_head?_withoutBlanks_render {rest : List Token} (separated : Separated rest)
    (unworded : startsWithWord rest = false) :
    ∀ c ∈ (Text.withoutBlanks (render rest)).head?, isWordChar c = false := by
  intro c first
  cases separated with
  | nil => cases first
  | word => cases unworded
  | mark isMark =>
    rw [withoutBlanks_render_mark isMark] at first
    cases first
    exact isWordChar_eq_false_of_isMark isMark

section Passes

variable {closes : Char → Bool} {name : Text} {tokens : List Token}
  (wordless : ∀ c, isWordChar c = true → closes c = false)

include wordless

/-- A name may end in front of pieces if it may end in front of their text. -/
theorem head?_all_withoutBlanks_render (separated : Separated tokens) :
    (Text.withoutBlanks (render tokens)).head?.all closes = startsClosed closes tokens := by
  cases separated with
  | nil => rfl
  | mark isMark => rw [withoutBlanks_render_mark isMark]; rfl
  | word isWord =>
    obtain ⟨nonempty, chars⟩ := isWord
    obtain ⟨c, w, rfl⟩ := List.exists_cons_of_ne_nil nonempty
    rw [withoutBlanks_render_word ⟨nonempty, chars⟩]
    exact wordless c (chars c (List.mem_cons_self ..))

/-- On the text of separated pieces the search marks words. -/
theorem markOccurrences_render (isName : IsWord name) (separated : Separated tokens)
    (before : Option Char) :
    markOccurrences closes name before (Text.withoutBlanks (render tokens)) =
      Text.withoutBlanks (render
        (mapNames closes (marked [name]) (before.all opensName) tokens)) := by
  induction separated generalizing before with
  | nil => exact markOccurrences.eq_1 ..
  | @mark c rest isMark separated ih =>
    rw [withoutBlanks_render_mark isMark, mapNames, withoutBlanks_render_mark isMark,
      markOccurrences, if_neg, ih]
    · rfl
    · rintro ⟨nonempty, start, -⟩
      obtain ⟨d, name, rfl⟩ := List.exists_cons_of_ne_nil nonempty
      obtain ⟨rfl, -⟩ := List.cons_prefix_cons.1 (List.isPrefixOf_iff_prefix.1 start)
      have inWord := isName.chars d (List.mem_cons_self ..)
      rw [isWordChar_eq_false_of_isMark isMark] at inWord
      cases inWord
  | @word w rest isWord unworded separated ih =>
    have inside : w.getLast?.all opensName = false := by
      cases last : w.getLast? with
      | none => exact absurd (List.getLast?_eq_none_iff.1 last) isWord.nonempty
      | some c => exact opensName_eq_false (isWord.chars c (List.mem_of_getLast? last))
    have image : (if w = name ∧ before.all opensName = true ∧ startsClosed closes rest = true
        then placeholder name else w) =
        if before.all opensName && startsClosed closes rest then marked [name] w else w := by
      by_cases same : w = name
      · simp [same, marked]
      · simp [same, marked]
    have isWord' : IsWord (if before.all opensName && startsClosed closes rest
        then marked [name] w else w) := by
      split
      · exact isWord_marked isWord
      · exact isWord
    rw [withoutBlanks_render_word isWord, markOccurrences_word wordless isName isWord
      (isWordChar_head?_withoutBlanks_render separated unworded),
      head?_all_withoutBlanks_render wordless separated, ih, inside, image, mapNames,
      withoutBlanks_render_word isWord']

theorem markPass_render (isName : IsWord name) (separated : Separated tokens) :
    markPass closes name (render tokens) =
      render (mapNames closes (marked [name]) true tokens) := by
  have searched := markOccurrences_render wordless isName separated none
  have kept := separated.mapMarked closes [name] true
  rw [markPass, searched]
  exact spaceCommas_withoutBlanks_render kept

/-- Passes come to rest after the first one. -/
theorem restsAt_markPass (proper : isIdentifier name = true) (separated : Separated tokens)
    {type : Text} (spelled : Text.withoutBlanks type = Text.withoutBlanks (render tokens)) :
    RestsAt (markPass closes name) type (render (mapNames closes (marked [name]) true tokens)) := by
  have isName := isWord_of_isIdentifier proper
  have kept := separated.mapMarked closes [name] true
  have again : (fun w => marked [name] (marked [name] w)) = marked [name] := by
    funext w
    rw [marked_marked (by simpa using proper)]
    simp [marked]
  refine ⟨?_, 1, ?_⟩
  · rw [markPass_render wordless isName kept, mapNames_mapNames, again]
  · rw [Function.iterate_one, ← markPass_render wordless isName separated, markPass, spelled]
    rfl

/-- One parameter after the other, passes mark all words that are parameters. -/
theorem markedInTurn_render {parameters : List Text}
    (names : ∀ p ∈ parameters, isIdentifier p = true) (separated : Separated tokens) :
    MarkedInTurn closes parameters (render tokens)
      (render (mapNames closes (marked parameters) true tokens)) := by
  induction parameters generalizing tokens with
  | nil => rw [mapNames_marked_nil]; rfl
  | cons parameter parameters ih =>
    obtain ⟨first, later⟩ := List.forall_mem_cons.1 names
    have next := ih later (separated.mapMarked closes [parameter] true)
    rw [mapNames_mapNames, funext (marked_marked later)] at next
    exact ⟨_, restsAt_markPass wordless first separated rfl, next⟩

theorem markedInTurn {parameters : List Text} (nonempty : parameters ≠ [])
    (names : ∀ p ∈ parameters, isIdentifier p = true) (separated : Separated tokens) {type : Text}
    (spelled : Text.withoutBlanks type = Text.withoutBlanks (render tokens)) :
    MarkedInTurn closes parameters type
      (render (mapNames closes (marked parameters) true tokens)) := by
  cases parameters with
  | nil => exact absurd rfl nonempty
  | cons parameter parameters =>
    -- the first pass takes the same from the text as from its rendered pieces
    obtain ⟨middle, rests, rest⟩ := markedInTurn_render wordless names separated
    have first := (List.forall_mem_cons.1 names).1
    have started := restsAt_markPass wordless first separated spelled
    rw [rests.unique (restsAt_markPass wordless first separated rfl)] at rest
    exact ⟨_, started, rest⟩

end Passes

end Token

end ApiSchema
