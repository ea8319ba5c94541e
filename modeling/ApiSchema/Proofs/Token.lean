import ApiSchema.Proofs.TypeExpr.Arguments
import ApiSchema.Proofs.TypeExpr.Written
import ApiSchema.Token

/-!
# Rewriting a text piece by piece

Words end at marks and blanks, so a text is scanned piece by piece there (`scan_append`), and
`substituteWords` rewrites the pieces between marks on their own: `substituteWords_mark` says so for
every mark but the `#`, which holds on to the words beside it (`substituteWords_format`).
-/

namespace ApiSchema

/-! ## Scanning -/

theorem isBlank_eq_false_of_isMark {c : Char} (mark : isMark c = true) : isBlank c = false := by
  simp only [isMark, Bool.or_eq_true, beq_iff_eq] at mark
  rcases mark with ((((rfl | rfl) | rfl) | rfl) | rfl) | rfl <;> decide

theorem isWordChar_of_isIdentifierChar {c : Char} (hc : isIdentifierChar c = true) :
    isWordChar c = true := by
  have unmarked : isMark c = false := by
    rw [← Bool.not_eq_true]
    intro mark
    simp only [isMark, Bool.or_eq_true, beq_iff_eq] at mark
    rcases mark with ((((rfl | rfl) | rfl) | rfl) | rfl) | rfl <;> (revert hc; decide)
  rw [isWordChar, isBlank_eq_false_of_isIdentifierChar hc, unmarked]
  rfl

theorem isWordChar_of_isIdentifier {word : Text} (name : isIdentifier word = true) :
    ∀ c ∈ word, isWordChar c = true := by
  intro c member
  exact isWordChar_of_isIdentifierChar (isIdentifierChar_of_mem name c member)

theorem isWordChar_of_isFormat {format : Text} (formed : isFormat format = true) :
    ∀ c ∈ format, isWordChar c = true := by
  intro c member
  rcases isIdentifierChar_of_mem_format formed c member with hc | rfl
  · exact isWordChar_of_isIdentifierChar hc
  · decide

theorem takeWhile_append_of_stop {p : Char → Bool} {front rest : Text}
    (stop : ∀ c ∈ rest.head?, p c = false) :
    (front ++ rest).takeWhile p = front.takeWhile p := by
  induction front with
  | nil =>
    cases rest with
    | nil => rfl
    | cons c rest => simp [stop c rfl]
  | cons c front ih =>
    rw [List.cons_append, List.takeWhile_cons, List.takeWhile_cons, ih]

theorem dropWhile_append_of_stop {p : Char → Bool} {front rest : Text}
    (stop : ∀ c ∈ rest.head?, p c = false) :
    (front ++ rest).dropWhile p = front.dropWhile p ++ rest := by
  induction front with
  | nil =>
    cases rest with
    | nil => rfl
    | cons c rest => simp [stop c rfl]
  | cons c front ih =>
    rw [List.cons_append, List.dropWhile_cons, List.dropWhile_cons, ih]
    split <;> rfl

namespace Token

theorem scan_nil : scan [] = [] := by
  rw [scan.eq_def]

theorem scan_cons (c : Char) (rest : Text) :
    scan (c :: rest) =
      if isBlank c then scan rest
      else if isMark c then mark c :: scan rest
      else word (c :: rest.takeWhile isWordChar) :: scan (rest.dropWhile isWordChar) := by
  rw [scan.eq_def]

/-- A text is scanned on its own up to where no word goes on. -/
theorem scan_append (front : Text) {rest : Text} (stop : ∀ c ∈ rest.head?, isWordChar c = false) :
    scan (front ++ rest) = scan front ++ scan rest := by
  fun_induction scan front with
  | case1 => rfl
  | case2 c front blank ih =>
    rw [List.cons_append, scan_cons, if_pos blank, ih]
  | case3 c front inked mark ih =>
    rw [List.cons_append, scan_cons, if_neg inked, if_pos mark, ih]
    rfl
  | case4 c front inked unmarked ih =>
    rw [List.cons_append, scan_cons, if_neg inked, if_neg unmarked, takeWhile_append_of_stop stop,
      dropWhile_append_of_stop stop, ih]
    rfl

theorem scan_mark {c : Char} (isMark : isMark c = true) (rest : Text) :
    scan (c :: rest) = mark c :: scan rest := by
  rw [scan_cons, if_neg (by simp [isBlank_eq_false_of_isMark isMark]), if_pos isMark]

theorem scan_append_mark (front : Text) {c : Char} (isMark : ApiSchema.isMark c = true)
    (rest : Text) : scan (front ++ c :: rest) = scan front ++ mark c :: scan rest := by
  rw [scan_append front, scan_mark isMark]
  intro d first
  obtain rfl : c = d := Option.some.inj first
  rw [isWordChar, isMark, Bool.not_true, Bool.and_false]

theorem scan_isBlank_append {before : Text} (blank : before.IsBlank) (rest : Text) :
    scan (before ++ rest) = scan rest := by
  induction before with
  | nil => rfl
  | cons c before ih =>
    rw [List.cons_append, scan_cons, if_pos (blank c (List.mem_cons_self ..)),
      ih fun d member => blank d (List.mem_cons_of_mem _ member)]

theorem scan_isBlank {text : Text} (blank : text.IsBlank) : scan text = [] := by
  have scanned := scan_isBlank_append blank []
  rw [List.append_nil] at scanned
  rw [scanned, scan_nil]

/-- Blanks around a text are not scanned. -/
theorem scan_padded {before after : Text} (hb : before.IsBlank) (ha : after.IsBlank) (core : Text) :
    scan (before ++ core ++ after) = scan core := by
  have stop : ∀ c ∈ after.head?, isWordChar c = false := by
    intro c first
    have blank := ha c (List.mem_of_mem_head? first)
    rw [isWordChar, blank]
    rfl
  rw [scan_append _ stop, scan_isBlank_append hb, scan_isBlank ha, List.append_nil]

theorem scan_word {w : Text} (nonempty : w ≠ []) (chars : ∀ c ∈ w, isWordChar c = true) :
    scan w = [word w] := by
  cases w with
  | nil => exact absurd rfl nonempty
  | cons c rest =>
    have first := chars c (List.mem_cons_self ..)
    simp only [isWordChar, Bool.and_eq_true, Bool.not_eq_true'] at first
    have later : ∀ d ∈ rest, isWordChar d = true := fun d member =>
      chars d (List.mem_cons_of_mem _ member)
    rw [scan_cons, if_neg (by simp [first.1]), if_neg (by simp [first.2]),
      List.takeWhile_eq_self_iff.2 later, List.dropWhile_eq_nil_iff.2 later, scan_nil]

/-- A part between two commas is scanned on its own. -/
theorem scan_part_of_join {part : Text} {parts : List Text} (member : part ∈ parts) :
    scan part <:+: scan (Text.join [','] parts) := by
  induction parts with
  | nil => cases member
  | cons first parts ih =>
    cases parts with
    | nil =>
      obtain rfl := List.mem_singleton.1 member
      simp
    | cons next parts =>
      rw [Text.join_cons_cons, List.append_assoc, List.singleton_append,
        scan_append_mark first (by decide)]
      rcases List.mem_cons.1 member with rfl | later
      · exact (List.prefix_append _ _).isInfix
      · exact (ih later).trans ((List.suffix_cons _ _).trans (List.suffix_append _ _)).isInfix

theorem scan_generic {head : Text} (nonempty : head ≠ [])
    (chars : ∀ c ∈ head, isWordChar c = true) (inside : Text) :
    scan (head ++ '<' :: inside ++ ['>']) =
      [word head, mark '<'] ++ (scan inside ++ [mark '>']) := by
  rw [scan_append_mark _ (by decide), scan_append_mark head (by decide), scan_word nonempty chars,
    scan_nil]
  simp

theorem scan_array (item : Text) :
    scan (item ++ ['[', ']']) = scan item ++ [mark '[', mark ']'] := by
  rw [scan_append_mark item (by decide), scan_mark (by decide), scan_nil]

/-! ## Rewriting the words of a list of pieces -/

theorem substitute_mark (lookup : Text → Option Text) (flag : Bool) (c : Char)
    (rest : List Token) :
    substitute lookup flag (mark c :: rest) = mark c :: substitute lookup (c == '#') rest := rfl

theorem startsWithHash_mark (c : Char) (rest : List Token) :
    startsWithHash (mark c :: rest) = (c == '#') := by
  unfold startsWithHash
  split
  · rename_i same
    cases same
    rfl
  · rename_i other
    symm
    rw [beq_eq_false_iff_ne]
    rintro rfl
    exact other rest rfl

theorem startsWithHash_append_mark (front : List Token) {c : Char} (notHash : c ≠ '#')
    (rest : List Token) : startsWithHash (front ++ mark c :: rest) = startsWithHash front := by
  cases front with
  | nil =>
    rw [List.nil_append, startsWithHash_mark, beq_false_of_ne notHash]
    rfl
  | cons token front =>
    cases token with
    | word w => rfl
    | mark d => rw [List.cons_append, startsWithHash_mark, startsWithHash_mark]

/-- Pieces are rewritten on their own in front of a mark that is not a `#`. -/
theorem substitute_append_mark (lookup : Text → Option Text) (flag : Bool) (front : List Token)
    {c : Char} (notHash : c ≠ '#') (rest : List Token) :
    substitute lookup flag (front ++ mark c :: rest) =
      substitute lookup flag front ++ mark c :: substitute lookup false rest := by
  induction front generalizing flag with
  | nil =>
    rw [List.nil_append, substitute_mark, beq_false_of_ne notHash]
    rfl
  | cons token front ih =>
    cases token with
    | mark d => rw [List.cons_append, substitute_mark, substitute_mark, ih, List.cons_append]
    | word w =>
      rw [List.cons_append, substitute, substitute, startsWithHash_append_mark front notHash, ih]
      split <;> rfl

theorem render_append (front rest : List Token) :
    render (front ++ rest) = render front ++ render rest :=
  List.flatMap_append

theorem render_cons (token : Token) (rest : List Token) :
    render (token :: rest) = token.text ++ render rest :=
  List.flatMap_cons

/-- The characters of a rewritten text come from its pieces or from what is put in. -/
theorem mem_render_substitute {lookup : Text → Option Text} {flag : Bool} {tokens : List Token}
    {c : Char} (member : c ∈ render (substitute lookup flag tokens)) :
    (∃ token ∈ tokens, c ∈ token.text) ∨ ∃ w v, lookup w = some v ∧ c ∈ v := by
  induction tokens generalizing flag with
  | nil => cases member
  | cons token tokens ih =>
    have later : ∀ {flag : Bool}, c ∈ render (substitute lookup flag tokens) →
        (∃ t ∈ token :: tokens, c ∈ t.text) ∨ ∃ w v, lookup w = some v ∧ c ∈ v := by
      intro flag inside
      exact (ih inside).imp_left fun ⟨t, listed, own⟩ => ⟨t, List.mem_cons_of_mem _ listed, own⟩
    have first : c ∈ token.text →
        (∃ t ∈ token :: tokens, c ∈ t.text) ∨ ∃ w v, lookup w = some v ∧ c ∈ v :=
      fun own => .inl ⟨token, List.mem_cons_self .., own⟩
    cases token with
    | mark d =>
      rw [substitute, render_cons] at member
      exact (List.mem_append.1 member).elim first later
    | word w =>
      rw [substitute] at member
      split at member
      · rw [render_cons] at member
        exact (List.mem_append.1 member).elim first later
      · rw [render_cons] at member
        refine (List.mem_append.1 member).elim (fun own => ?_) later
        cases found : lookup w with
        | none =>
          rw [found] at own
          exact first own
        | some v =>
          rw [found] at own
          exact .inr ⟨w, v, found, own⟩

end Token

/-! ## Rewriting the words of a text -/

variable (lookup : Text → Option Text)

/-- What stands on the two sides of a mark that is not a `#` is rewritten on its own. -/
theorem substituteWords_mark (front : Text) {c : Char} (mark : isMark c = true)
    (notHash : c ≠ '#') (rest : Text) :
    substituteWords lookup (front ++ c :: rest) =
      substituteWords lookup front ++ (Token.mark c).text ++ substituteWords lookup rest := by
  rw [substituteWords, Token.scan_append_mark front mark,
    Token.substitute_append_mark lookup false _ notHash, Token.render_append, Token.render_cons,
    ← List.append_assoc]
  rfl

theorem substituteWords_padded {before after : Text} (hb : before.IsBlank) (ha : after.IsBlank)
    (core : Text) :
    substituteWords lookup (before ++ core ++ after) = substituteWords lookup core := by
  rw [substituteWords, Token.scan_padded hb ha]
  rfl

theorem substituteWords_isBlank {text : Text} (blank : text.IsBlank) :
    substituteWords lookup text = [] := by
  rw [substituteWords, Token.scan_isBlank blank]
  rfl

theorem substituteWords_word {w : Text} (nonempty : w ≠ [])
    (chars : ∀ c ∈ w, isWordChar c = true) : substituteWords lookup w = (lookup w).getD w := by
  rw [substituteWords, Token.scan_word nonempty chars]
  simp [Token.substitute, Token.startsWithHash, Token.render, Token.text]

/-- The words on both sides of a `#` are kept. -/
theorem substituteWords_format {head format : Text} (nonempty : head ≠ [])
    (headChars : ∀ c ∈ head, isWordChar c = true)
    (formatChars : ∀ c ∈ format, isWordChar c = true) :
    substituteWords lookup (head ++ '#' :: format) = head ++ '#' :: format := by
  rw [substituteWords, Token.scan_append_mark head (by decide), Token.scan_word nonempty headChars]
  by_cases empty : format = []
  · rw [empty, Token.scan_nil]
    simp [Token.substitute, Token.startsWithHash, Token.render, Token.text]
  · rw [Token.scan_word empty formatChars]
    simp [Token.substitute, Token.startsWithHash, Token.render, Token.text]

/-- The parts between commas are rewritten on their own. -/
theorem substituteWords_join (parts : List Text) :
    substituteWords lookup (Text.join [','] parts) =
      Text.join [',', ' '] (parts.map (substituteWords lookup)) := by
  induction parts with
  | nil => exact substituteWords_isBlank lookup Text.isBlank_nil
  | cons part parts ih =>
    cases parts with
    | nil => simp
    | cons next parts =>
      rw [Text.join_cons_cons, List.append_assoc, List.singleton_append,
        substituteWords_mark lookup part (by decide) (by decide), ih, List.map_cons, List.map_cons,
        List.map_cons, Text.join_cons_cons]
      rfl

theorem substituteWords_generic {head : Text} (nonempty : head ≠ [])
    (chars : ∀ c ∈ head, isWordChar c = true) (parts : List Text) :
    substituteWords lookup (head ++ '<' :: Text.join [','] parts ++ ['>']) =
      (lookup head).getD head ++
        '<' :: Text.join [',', ' '] (parts.map (substituteWords lookup)) ++ ['>'] := by
  rw [substituteWords_mark lookup _ (by decide) (by decide),
    substituteWords_mark lookup head (by decide) (by decide), substituteWords_join,
    substituteWords_word lookup nonempty chars, substituteWords_isBlank lookup Text.isBlank_nil]
  simp [Token.text]

theorem substituteWords_array (item : Text) :
    substituteWords lookup (item ++ ['[', ']']) = substituteWords lookup item ++ ['[', ']'] := by
  have closed : substituteWords lookup ([] ++ [']']) = [']'] := by
    rw [substituteWords_mark lookup [] (by decide) (by decide),
      substituteWords_isBlank lookup Text.isBlank_nil]
    rfl
  rw [substituteWords_mark lookup item (by decide) (by decide), ← List.nil_append [']'], closed]
  simp [Token.text]

end ApiSchema
