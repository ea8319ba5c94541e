import ApiSchema.Proofs.Template.Marking

/-!
# Only parameters are marked, and all of them

Preparing a template puts placeholder marks around words of its types. Without these marks a
prepared type is the type it came from, scanned and rendered (`unmarked_render_substitute`).

One pass is enough. Pieces are rewritten without a look at what other words have become: whether a
word stands beside a `#` is the same before and after (`startsWithHash_substitute`). A placeholder
is no parameter, so a second pass finds nothing to do (`substitute_substitute`), and the parameters
that are left are those beside a `#` (`besideHash_of_substitute`). On the text of a type this holds
because the new words are found again in the rendered text (`scan_markParameters`).
-/

namespace ApiSchema

/-! ## Taking the marks off -/

/-- A text without the marks of placeholders. -/
def Text.unmarked (text : Text) : Text :=
  text.filter fun c => c != '«' && c != '»'

/-- A text that has no marks of placeholders. -/
structure Text.MarkFree (text : Text) : Prop where
  opening : '«' ∉ text
  closing : '»' ∉ text

namespace Text

theorem unmarked_append (a b : Text) : unmarked (a ++ b) = unmarked a ++ unmarked b :=
  List.filter_append ..

theorem MarkFree.unmarked_eq {text : Text} (free : text.MarkFree) : unmarked text = text := by
  apply List.filter_eq_self.2
  intro c member
  have notOpening : c ≠ '«' := fun same => free.opening (same ▸ member)
  have notClosing : c ≠ '»' := fun same => free.closing (same ▸ member)
  simp [notOpening, notClosing]

theorem MarkFree.unmarked_placeholder {text : Text} (free : text.MarkFree) :
    unmarked (placeholder text) = text := by
  show unmarked (['«'] ++ text ++ ['»']) = text
  rw [unmarked_append, unmarked_append, free.unmarked_eq]
  show [] ++ text ++ [] = text
  rw [List.nil_append, List.append_nil]

theorem MarkFree.of_mem_scan {text : Text} (free : text.MarkFree) {token : Token}
    (listed : token ∈ Token.scan text) : MarkFree token.text := by
  constructor
  · intro member
    rcases Token.mem_text_of_mem_scan listed member with inside | blank
    · exact free.opening inside
    · cases blank
  · intro member
    rcases Token.mem_text_of_mem_scan listed member with inside | blank
    · exact free.closing inside
    · cases blank

end Text

namespace Token

variable {tokens front back rest : List Token} {flag : Bool} {lookup : Text → Option Text}

/-- Where what is put in for a word is that word between marks, the marks are all that a rewritten
text has more. -/
theorem unmarked_render_substitute (free : ∀ token ∈ tokens, Text.MarkFree token.text)
    (image : ∀ w, Text.MarkFree w → Text.unmarked ((lookup w).getD w) = w) :
    Text.unmarked (render (substitute lookup flag tokens)) = render tokens := by
  induction tokens generalizing flag with
  | nil => rfl
  | cons token rest ih =>
    obtain ⟨first, later⟩ := List.forall_mem_cons.1 free
    cases token with
    | mark c =>
      rw [substitute_mark, render_cons, render_cons, Text.unmarked_append, ih later,
        first.unmarked_eq]
    | word w =>
      rw [substitute]
      split
      · rw [render_cons, render_cons, Text.unmarked_append, ih later, first.unmarked_eq]
      · rw [render_cons, render_cons, Text.unmarked_append, ih later, text, image w first]
        rfl

/-! ## A second pass -/

theorem startsWithHash_substitute (lookup : Text → Option Text) (flag : Bool)
    (tokens : List Token) :
    startsWithHash (substitute lookup flag tokens) = startsWithHash tokens := by
  cases tokens with
  | nil => rfl
  | cons token rest =>
    cases token with
    | mark c => rw [substitute_mark, startsWithHash_mark, startsWithHash_mark]
    | word w =>
      rw [substitute]
      split <;> rfl

/-- If nothing is put in for the words that were put in, rewriting twice is rewriting once. -/
theorem substitute_substitute
    (settled : ∀ w, (lookup ((lookup w).getD w)).getD ((lookup w).getD w) = (lookup w).getD w) :
    substitute lookup flag (substitute lookup flag tokens) = substitute lookup flag tokens := by
  induction tokens generalizing flag with
  | nil => rfl
  | cons token rest ih =>
    cases token with
    | mark c => rw [substitute_mark, substitute_mark, ih]
    | word w =>
      rw [substitute]
      split
      · rename_i beside
        rw [substitute, startsWithHash_substitute, if_pos beside, ih]
      · rename_i free
        rw [substitute, startsWithHash_substitute, if_neg free, ih, settled]

/-- The end of the pieces in front or the start of the pieces behind is a `#`. -/
def BesideHash (front back : List Token) : Prop :=
  front.getLast? = some (mark '#') ∨ back.head? = some (mark '#')

theorem startsWithHash_iff : startsWithHash rest = true ↔ rest.head? = some (mark '#') := by
  cases rest with
  | nil => simp [startsWithHash]
  | cons token rest =>
    cases token with
    | word w => simp [startsWithHash]
    | mark c => simp [startsWithHash_mark]

/-- If no word is put in that is one of `words`, those that are left stand beside a `#`, which may
be in front of all pieces. -/
theorem besideHash_of_substitute {words : List Text} (replaced : ∀ w, (lookup w).getD w ∉ words)
    {w : Text} (member : w ∈ words)
    (split : substitute lookup flag tokens = front ++ word w :: back) :
    (front = [] ∧ flag = true) ∨ BesideHash front back := by
  induction tokens generalizing flag front with
  | nil => exact absurd split (by simp [substitute])
  | cons token rest ih =>
    cases token with
    | mark c =>
      rw [substitute_mark] at split
      cases front with
      | nil => cases split
      | cons first front =>
        obtain ⟨rfl, later⟩ := List.cons.inj split
        rcases ih later with ⟨rfl, hash⟩ | last | first
        · obtain rfl := beq_iff_eq.1 hash
          exact .inr (.inl rfl)
        · exact .inr (.inl (by rw [List.getLast?_cons, last]; rfl))
        · exact .inr (.inr first)
    | word v =>
      rw [substitute] at split
      cases front with
      | nil =>
        split at split
        · rename_i beside
          obtain ⟨-, rfl⟩ := List.cons.inj split
          rcases Bool.or_eq_true_iff.1 beside with hash | hash
          · exact .inl ⟨rfl, hash⟩
          · rw [← startsWithHash_substitute lookup false] at hash
            exact .inr (.inr (startsWithHash_iff.1 hash))
        · obtain ⟨same, -⟩ := List.cons.inj split
          obtain rfl := word.inj same
          exact absurd member (replaced v)
      | cons first front =>
        have later : substitute lookup false rest = front ++ word w :: back := by
          split at split <;> exact (List.cons.inj split).2
        rcases ih later with ⟨-, hash⟩ | last | first
        · cases hash
        · exact .inr (.inl (by rw [List.getLast?_cons, last]; rfl))
        · exact .inr (.inr first)

/-- Words for words keep pieces apart. -/
theorem Separated.substitute (separated : Separated tokens)
    (words : ∀ w, IsWord w → IsWord ((lookup w).getD w)) :
    Separated (substitute lookup flag tokens) := by
  induction separated generalizing flag with
  | nil => exact .nil
  | mark isMark _ ih =>
    rw [substitute_mark]
    exact .mark isMark ih
  | @word w rest isWord unworded _ ih =>
    have unworded' : startsWithWord (Token.substitute lookup false rest) = false := by
      cases rest with
      | nil => rfl
      | cons token rest =>
        cases token with
        | word v => cases unworded
        | mark c => rfl
    rw [Token.substitute]
    split
    · exact .word isWord unworded' ih
    · exact .word (words w isWord) unworded' ih

end Token

/-! ## Prepared types -/

section

variable {parameters : List Text} {type : Text}

theorem getD_placeholder_eq_marked (parameters : List Text) (w : Text) :
    (if w ∈ parameters then some (placeholder w) else none).getD w = marked parameters w := by
  unfold marked
  split <;> rfl

theorem unmarked_markParameters (free : type.MarkFree) :
    Text.unmarked (markParameters parameters type) = Token.render (Token.scan type) := by
  apply Token.unmarked_render_substitute fun token listed => free.of_mem_scan listed
  intro w own
  rw [getD_placeholder_eq_marked, marked]
  split
  · exact own.unmarked_placeholder
  · exact own.unmarked_eq

/-- A placeholder is no parameter. -/
theorem marked_not_mem (names : ∀ p ∈ parameters, isIdentifier p = true) (w : Text) :
    marked parameters w ∉ parameters := by
  unfold marked
  split
  · intro member
    have opening : '«' ∉ placeholder w := not_mem_of_isIdentifier (names _ member) (by decide)
    exact opening (List.mem_cons_self ..)
  · assumption

theorem separated_of_check (checked : TypeExpr.check type = .ok ()) :
    Token.Separated (Token.scan type) := by
  obtain ⟨t, parsed⟩ := check_eq_ok_iff.1 checked
  obtain ⟨before, after, hb, ha, split⟩ := Text.exists_trim_padding type
  rw [split, Token.scan_padded hb ha]
  exact (parse_eq_ok_iff.1 parsed).placed.separated

/-- The pieces of a prepared type are the rewritten pieces of the type. -/
theorem scan_markParameters (separated : Token.Separated (Token.scan type)) :
    Token.scan (markParameters parameters type) =
      Token.substitute (fun w => if w ∈ parameters then some (placeholder w) else none) false
        (Token.scan type) := by
  apply Token.scan_render
  apply separated.substitute
  intro w isWord
  rw [getD_placeholder_eq_marked]
  exact isWord_marked isWord

end

namespace Template

/-- A prepared template has the name, the description and the properties of its definition, with
other types. Without the marks of placeholders, which the given type does not hold, a prepared type
is the given one scanned and rendered. If the given type is well formed, each word of the prepared
type that is a parameter stands beside a `#`, and marking the parameters once more changes
nothing. -/
theorem prepare_marks_once {d : Definition} {template : Template}
    (prepared : prepare d = .ok template) :
    template.name = d.name ∧ template.description = d.description ∧
    List.Forall₂ (fun p q : Property =>
      q = { p with type := q.type } ∧
      (p.type.MarkFree → q.type.unmarked = Token.render (Token.scan p.type)) ∧
      (TypeExpr.check p.type = .ok () →
        (∀ front w back, Token.scan q.type = front ++ .word w :: back → w ∈ d.parameters →
          Token.BesideHash front back) ∧
        markParameters d.distinctParameters q.type = q.type))
      d.properties template.properties := by
  obtain ⟨names, rfl⟩ := prepare_eq_ok prepared
  have proper : ∀ p ∈ d.distinctParameters, isIdentifier p = true :=
    fun p member => names p (List.mem_eraseDups.1 member)
  refine ⟨rfl, rfl, ?_⟩
  rw [List.forall₂_map_right_iff, List.forall₂_same]
  intro p _
  refine ⟨rfl, unmarked_markParameters, fun checked => ?_⟩
  have pieces : Token.scan (markParameters d.distinctParameters p.type) = _ :=
    scan_markParameters (separated_of_check checked)
  constructor
  · intro front w back split member
    rw [pieces] at split
    have replaced : ∀ w, (if w ∈ d.distinctParameters then some (placeholder w) else none).getD w
        ∉ d.distinctParameters := by
      intro w
      rw [getD_placeholder_eq_marked]
      exact marked_not_mem proper w
    rcases Token.besideHash_of_substitute replaced (List.mem_eraseDups.2 member) split with
      ⟨-, hash⟩ | beside
    · cases hash
    · exact beside
  · show Token.render (Token.substitute _ false (Token.scan (markParameters _ p.type))) = _
    rw [pieces, Token.substitute_substitute]
    · rfl
    · intro w
      rw [getD_placeholder_eq_marked, getD_placeholder_eq_marked]
      exact marked_eq_self_iff.2 (marked_not_mem proper w)

/-- Prices in a currency, and since a day. The parameter for the day has the name of a format. -/
def prices : Definition :=
  { name := "Price".toList
    parameters := ["C".toList, "date".toList, "C".toList]
    properties := [.new "in".toList " Amount< C ,date[], string#date>".toList true []] }

theorem prepare_marks_once_prices :
    ∃ template q, prepare prices = .ok template ∧ template.properties = [q] ∧
      q.type = "Amount<«C», «date»[], string#date>".toList ∧
      q.type.unmarked = "Amount<C, date[], string#date>".toList ∧
      (∀ front w back, Token.scan q.type = front ++ .word w :: back → w ∈ prices.parameters →
        Token.BesideHash front back) ∧
      markParameters prices.distinctParameters q.type = q.type := by
  obtain ⟨template, prepared⟩ := exists_ok_of_isSome
    (by decide +kernel : (prepare prices).toOption.isSome = true)
  obtain ⟨-, -, properties⟩ := prepare_marks_once prepared
  obtain ⟨q, rest, ⟨-, taken, formed⟩, others, whole⟩ := List.forall₂_cons_left_iff.1 properties
  obtain rfl := List.forall₂_nil_left_iff.1 others
  have free : Text.MarkFree " Amount< C ,date[], string#date>".toList :=
    ⟨by decide +kernel, by decide +kernel⟩
  have checked : TypeExpr.check " Amount< C ,date[], string#date>".toList = .ok () :=
    toOption_eq_some_iff.1 (by decide +kernel)
  have rendered : Token.render (Token.scan " Amount< C ,date[], string#date>".toList) =
      "Amount<C, date[], string#date>".toList := by decide +kernel
  have spelled : ((prepare prices).toOption.map fun template =>
      template.properties.map Property.type) =
      some ["Amount<«C», «date»[], string#date>".toList] := by decide +kernel
  rw [prepared, Except.toOption, Option.map_some, whole, List.map_singleton] at spelled
  obtain ⟨beside, again⟩ := formed checked
  exact ⟨template, q, prepared, whole, (List.cons.inj (Option.some.inj spelled)).1,
    (taken free).trans rendered, beside, again⟩

end Template

end ApiSchema
