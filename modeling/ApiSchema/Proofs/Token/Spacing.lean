import ApiSchema.Proofs.Token

/-!
# Spacing

Scanning drops the blanks of a text and rendering puts one behind each comma, and nothing else
changes on the way there and back: `Token.render_scan` starts from a text, `Token.scan_render` from
pieces. The pieces must be `Separated`, since two words side by side are rendered as one: no other
pieces are found again (`Token.scan_render_eq_self_iff`).
-/

namespace ApiSchema

/-! ## Blanks and commas -/

namespace Text

/-- A text without its blanks. -/
def withoutBlanks (text : Text) : Text :=
  text.filter (!isBlank ·)

/-- A text with a blank behind each comma. -/
def spaceCommas (text : Text) : Text :=
  text.flatMap fun c => if c = ',' then [',', ' '] else [c]

theorem withoutBlanks_append (front rest : Text) :
    withoutBlanks (front ++ rest) = withoutBlanks front ++ withoutBlanks rest :=
  List.filter_append ..

theorem withoutBlanks_cons_of_ink {c : Char} (ink : isBlank c = false) (rest : Text) :
    withoutBlanks (c :: rest) = c :: withoutBlanks rest :=
  List.filter_cons_of_pos (by simp [ink])

theorem withoutBlanks_cons_of_blank {c : Char} (blank : isBlank c = true) (rest : Text) :
    withoutBlanks (c :: rest) = withoutBlanks rest :=
  List.filter_cons_of_neg (by simp [blank])

theorem spaceCommas_append (front rest : Text) :
    spaceCommas (front ++ rest) = spaceCommas front ++ spaceCommas rest :=
  List.flatMap_append

theorem spaceCommas_cons (c : Char) (rest : Text) :
    spaceCommas (c :: rest) = spaceCommas [c] ++ spaceCommas rest :=
  spaceCommas_append [c] rest

theorem withoutBlanks_idem (text : Text) :
    withoutBlanks (withoutBlanks text) = withoutBlanks text := by
  unfold withoutBlanks
  rw [List.filter_filter]
  simp

/-- What is put behind a comma is taken out again. -/
theorem withoutBlanks_spaceCommas (text : Text) :
    withoutBlanks (spaceCommas text) = withoutBlanks text := by
  induction text with
  | nil => rfl
  | cons c rest ih =>
    have first : withoutBlanks (spaceCommas [c]) = withoutBlanks [c] := by
      rw [spaceCommas, List.flatMap_singleton]
      split
      · rename_i comma
        rw [comma]
        rfl
      · rfl
    rw [spaceCommas_cons, withoutBlanks_append, ih, first, ← withoutBlanks_append,
      List.singleton_append]

end Text

/-! ## Words -/

/-- A word: one or more characters that are neither blanks nor marks. -/
structure IsWord (w : Text) : Prop where
  nonempty : w ≠ []
  chars : ∀ c ∈ w, isWordChar c = true

theorem isWord_of_isIdentifier {name : Text} (proper : isIdentifier name = true) : IsWord name :=
  ⟨ne_nil_of_isIdentifier proper, isWordChar_of_isIdentifier proper⟩

/-- A character that is neither a blank nor a mark starts a word. -/
theorem isWord_cons_takeWhile {c : Char} (inked : ¬ isBlank c = true) (unmarked : ¬ isMark c = true)
    (rest : Text) : IsWord (c :: rest.takeWhile isWordChar) := by
  refine ⟨List.cons_ne_nil _ _, List.forall_mem_cons.2 ⟨?_, fun d => List.mem_takeWhile_imp⟩⟩
  simp [isWordChar, inked, unmarked]

theorem isBlank_eq_false_of_isWordChar {c : Char} (hc : isWordChar c = true) :
    isBlank c = false := by
  rw [isWordChar, Bool.and_eq_true, Bool.not_eq_true'] at hc
  exact hc.1

theorem isWordChar_eq_false_of_isMark {c : Char} (mark : isMark c = true) :
    isWordChar c = false := by
  rw [isWordChar, mark, Bool.not_true, Bool.and_false]

theorem Text.withoutBlanks_of_word {w : Text} (chars : ∀ c ∈ w, isWordChar c = true) :
    withoutBlanks w = w := by
  refine List.filter_eq_self.2 fun c member => ?_
  rw [isBlank_eq_false_of_isWordChar (chars c member)]
  rfl

theorem Text.spaceCommas_of_word {w : Text} (chars : ∀ c ∈ w, isWordChar c = true) :
    spaceCommas w = w := by
  induction w with
  | nil => rfl
  | cons c rest ih =>
    obtain ⟨first, later⟩ := List.forall_mem_cons.1 chars
    have notComma : c ≠ ',' := by
      rintro rfl
      revert first
      decide
    rw [spaceCommas_cons, ih later, spaceCommas, List.flatMap_singleton, if_neg notComma]
    rfl

namespace Token

theorem text_mark_eq_spaceCommas (c : Char) : (mark c).text = Text.spaceCommas [c] := by
  rw [text, Text.spaceCommas, List.flatMap_singleton]

/-- Scanned and rendered, a text has lost its blanks and got one behind each comma. -/
theorem render_scan (text : Text) :
    render (scan text) = Text.spaceCommas (Text.withoutBlanks text) := by
  fun_induction scan text with
  | case1 => rfl
  | case2 c rest blank ih => rw [ih, Text.withoutBlanks_cons_of_blank blank]
  | case3 c rest inked isMark ih =>
    rw [render_cons, ih, text_mark_eq_spaceCommas,
      Text.withoutBlanks_cons_of_ink (by simpa using inked), ← Text.spaceCommas_cons]
  | case4 c rest inked unmarked ih =>
    -- the word is a stretch of the text that is kept as it is
    have parts : c :: rest = (c :: rest.takeWhile isWordChar) ++ rest.dropWhile isWordChar := by
      rw [List.cons_append, List.takeWhile_append_dropWhile]
    have chars := (isWord_cons_takeWhile inked unmarked rest).chars
    rw [parts, render_cons, ih, Text.withoutBlanks_append, Text.spaceCommas_append,
      Text.withoutBlanks_of_word chars, Text.spaceCommas_of_word chars, text]

theorem withoutBlanks_render_scan (text : Text) :
    Text.withoutBlanks (render (scan text)) = Text.withoutBlanks text := by
  rw [render_scan, Text.withoutBlanks_spaceCommas, Text.withoutBlanks_idem]

theorem render_scan_idem (text : Text) : render (scan (render (scan text))) = render (scan text) := by
  rw [render_scan, withoutBlanks_render_scan, ← render_scan]

/-! ## Separated pieces -/

/-- True if the pieces start with a word. -/
def startsWithWord : List Token → Bool
  | word _ :: _ => true
  | _ => false

/-- Words and marks with a mark between any two words. -/
inductive Separated : List Token → Prop
  | nil : Separated []
  | mark {c : Char} {rest : List Token} : isMark c = true → Separated rest →
    Separated (mark c :: rest)
  | word {w : Text} {rest : List Token} : IsWord w → startsWithWord rest = false →
    Separated rest → Separated (word w :: rest)

variable {c : Char} {w : Text} {rest tokens : List Token}

theorem scan_render_mark (isMark : isMark c = true) (rest : List Token) :
    scan (render (mark c :: rest)) = mark c :: scan (render rest) := by
  rw [render_cons, text]
  split
  · rename_i comma
    rw [List.cons_append, scan_mark (by decide), List.singleton_append, scan_cons,
      if_pos (by decide), comma]
  · rw [List.singleton_append, scan_mark isMark]

/-- No word goes on where pieces start that do not start with a word. -/
theorem isWordChar_head?_render (separated : Separated rest)
    (unworded : startsWithWord rest = false) :
    ∀ c ∈ (render rest).head?, isWordChar c = false := by
  intro c first
  cases separated with
  | nil => cases first
  | word => cases unworded
  | @mark d rest isMark _ =>
    rw [render_cons, text] at first
    have same : d = c := by
      split at first
      · rename_i comma
        exact comma.trans (Option.some.inj first)
      · exact Option.some.inj first
    exact same ▸ isWordChar_eq_false_of_isMark isMark

/-- Separated pieces are found again in their text. -/
theorem scan_render (separated : Separated tokens) : scan (render tokens) = tokens := by
  induction separated with
  | nil => exact scan_nil
  | mark isMark _ ih => rw [scan_render_mark isMark, ih]
  | word isWord unworded separated ih =>
    rw [render_cons, text, scan_append _ (isWordChar_head?_render separated unworded),
      scan_word isWord.nonempty isWord.chars, ih, List.singleton_append]

theorem render_injective (separated : Separated tokens) {others : List Token}
    (separatedOthers : Separated others) (same : render tokens = render others) :
    tokens = others := by
  rw [← scan_render separated, same, scan_render separatedOthers]

/-- Separated pieces are rendered with a blank behind each comma and no other. -/
theorem spaceCommas_withoutBlanks_render (separated : Separated tokens) :
    Text.spaceCommas (Text.withoutBlanks (render tokens)) = render tokens := by
  rw [← render_scan, scan_render separated]

/-! ## Pieces that are found again -/

/-- A mark, or a word without blanks and marks. -/
def Proper : Token → Prop
  | word w => IsWord w
  | mark c => isMark c = true

theorem proper_of_mem_scan {text : Text} {token : Token} (found : token ∈ scan text) :
    token.Proper := by
  fun_induction scan text with
  | case1 => cases found
  | case2 c rest blank ih => exact ih found
  | case3 c rest inked isMark ih =>
    rcases List.mem_cons.1 found with rfl | later
    · exact isMark
    · exact ih later
  | case4 c rest inked unmarked ih =>
    rcases List.mem_cons.1 found with rfl | later
    · exact isWord_cons_takeWhile inked unmarked rest
    · exact ih later

/-- A word takes in what follows it up to where no word goes on. -/
theorem scan_word_append (isWord : IsWord w) (rest : Text) :
    scan (w ++ rest) =
      word (w ++ rest.takeWhile isWordChar) :: scan (rest.dropWhile isWordChar) := by
  cases w with
  | nil => exact absurd rfl isWord.nonempty
  | cons c w =>
    obtain ⟨first, later⟩ := List.forall_mem_cons.1 isWord.chars
    simp only [isWordChar, Bool.and_eq_true, Bool.not_eq_true'] at first
    rw [List.cons_append, scan_cons, if_neg (by simp [first.1]), if_neg (by simp [first.2]),
      List.takeWhile_append_of_pos later, List.dropWhile_append_of_pos later]
    rfl

/-- Two words side by side are found as one, so pieces that are found again are separated. -/
theorem separated_of_scan_render (proper : ∀ token ∈ tokens, token.Proper)
    (found : scan (render tokens) = tokens) : Separated tokens := by
  induction tokens with
  | nil => exact .nil
  | cons token rest ih =>
    obtain ⟨own, others⟩ := List.forall_mem_cons.1 proper
    cases token with
    | mark c =>
      rw [scan_render_mark own] at found
      exact .mark own (ih others (List.cons.inj found).2)
    | word w =>
      rw [render_cons, text, scan_word_append own] at found
      obtain ⟨grown, behind⟩ := List.cons.inj found
      -- the word is found as it is, so nothing of what follows was taken into it
      have stop : (render rest).takeWhile isWordChar = [] :=
        List.append_right_eq_self.1 (word.inj grown)
      have kept := List.takeWhile_append_dropWhile (p := isWordChar) (l := render rest)
      rw [stop, List.nil_append] at kept
      rw [kept] at behind
      refine .word own ?_ (ih others behind)
      cases rest with
      | nil => rfl
      | cons next rest =>
        cases next with
        | mark => rfl
        | word v =>
          have properNext : IsWord v := others _ (List.mem_cons_self ..)
          rw [render_cons, text, List.takeWhile_append_of_pos properNext.chars] at stop
          exact absurd (List.append_eq_nil_iff.1 stop).1 properNext.nonempty

theorem scan_render_eq_self_iff : scan (render tokens) = tokens ↔ Separated tokens := by
  refine ⟨fun found => separated_of_scan_render (fun token member => ?_) found, scan_render⟩
  rw [← found] at member
  exact proper_of_mem_scan member

/-- Scanned and rendered, a text has lost its blanks and got one behind each comma, and doing this
again changes nothing. Rendered and scanned, a list of pieces is found again exactly if it consists
of words and marks with a mark between any two words. -/
theorem scan_inverts_render_up_to_spacing :
    (∀ text, render (scan text) = Text.spaceCommas (Text.withoutBlanks text) ∧
        render (scan (render (scan text))) = render (scan text)) ∧
      ∀ tokens, scan (render tokens) = tokens ↔ Separated tokens :=
  ⟨fun text => ⟨render_scan text, render_scan_idem text⟩, fun _ => scan_render_eq_self_iff⟩

end Token

end ApiSchema
