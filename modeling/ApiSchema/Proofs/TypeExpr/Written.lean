import ApiSchema.Proofs.Text.Trim
import ApiSchema.TypeExpr.Level

/-!
# How levels are written

`Level.Written text level` lists the spellings of a level: what stands before a final `[]`, a name
alone, a name with a format, a name with an argument list. `Level.ofText_eq_ok_iff` says that
`Level.ofText` reads exactly these, so that no later proof opens it again.
-/

namespace ApiSchema

/-! ## Characters -/

/-- A character of names is no other character. -/
theorem ne_of_isIdentifierChar {c d : Char} (hc : isIdentifierChar c = true)
    (hd : isIdentifierChar d = false) : c ≠ d := by
  rintro rfl
  rw [hc] at hd
  cases hd

theorem isBlank_eq_false_of_isIdentifierChar {c : Char} (hc : isIdentifierChar c = true) :
    isBlank c = false := by
  change (((decide (65 ≤ c.val ∧ c.val ≤ 90) ||
    (decide (97 ≤ c.val) && decide (c.val ≤ 122))) ||
    (decide (48 ≤ c.val) && decide (c.val ≤ 57))) || c == '_') = true at hc
  simp only [Bool.or_eq_true, Bool.and_eq_true, decide_eq_true_eq, beq_iff_eq,
    UInt32.le_iff_toNat_le] at hc
  change ((65 ≤ c.toNat ∧ c.toNat ≤ 90 ∨ 97 ≤ c.toNat ∧ c.toNat ≤ 122) ∨
    48 ≤ c.toNat ∧ c.toNat ≤ 57) ∨ c = '_' at hc
  rcases hc with hc | rfl
  · simp only [isBlank, Bool.or_eq_false_iff, Bool.and_eq_false_iff, decide_eq_false_iff_not,
      beq_eq_false_iff_ne]
    omega
  · decide

theorem isIdentifierChar_of_mem {text : Text} (name : isIdentifier text = true) :
    ∀ c ∈ text, isIdentifierChar c = true := by
  simp only [isIdentifier, Bool.and_eq_true] at name
  exact List.all_eq_true.1 name.2

theorem not_mem_of_isIdentifier {c : Char} {word : Text} (name : isIdentifier word = true)
    (other : isIdentifierChar c = false) : c ∉ word := by
  intro member
  rw [isIdentifierChar_of_mem name c member] at other
  cases other

theorem ne_nil_of_isIdentifier {text : Text} (name : isIdentifier text = true) : text ≠ [] := by
  rintro rfl
  cases name

/-- The characters of a format are those of names and the hyphen. -/
theorem isIdentifierChar_of_mem_format {format : Text} (formed : isFormat format = true) :
    ∀ c ∈ format, isIdentifierChar c = true ∨ c = '-' := by
  intro c member
  simpa using List.all_eq_true.1 formed c member

theorem endsHead_eq_false {head : Text} (name : isIdentifier head = true) :
    ∀ c ∈ head, (!Level.endsHead c) = true := by
  intro c member
  have hc := isIdentifierChar_of_mem name c member
  simp [Level.endsHead, ne_of_isIdentifierChar (d := '<') hc (by decide),
    ne_of_isIdentifierChar (d := '#') hc (by decide)]

/-! ## Keywords -/

namespace Primitive

theorem mem_all (kind : Primitive) : kind ∈ all := by
  cases kind <;> decide

/-- No two keywords start with the same character, so a name starts with at most one of them. -/
theorem eq_of_keyword_starts {a b : Primitive} {head : Text} (ha : a.keyword <+: head)
    (hb : b.keyword <+: head) : a = b := by
  have nested := List.prefix_or_prefix_of_prefix ha hb
  revert nested
  cases a <;> cases b <;> decide

theorem ofKeyword?_eq_some_iff {word : Text} {kind : Primitive} :
    ofKeyword? word = some kind ↔ word = kind.keyword := by
  constructor
  · intro found
    have named := List.find?_some found
    exact (of_decide_eq_true named).symm
  · rintro rfl
    cases kind <;> decide

theorem find?_keyword_eq_some_iff {head : Text} {kind : Primitive} :
    all.find? (·.keyword.isPrefixOf head) = some kind ↔ kind.keyword <+: head := by
  constructor
  · intro found
    have start := List.find?_some found
    exact List.isPrefixOf_iff_prefix.1 start
  · intro start
    cases found : all.find? (·.keyword.isPrefixOf head) with
    | none =>
      have absent := List.find?_eq_none.1 found kind (mem_all kind)
      exact (absent (List.isPrefixOf_iff_prefix.2 start)).elim
    | some other =>
      have start' := List.find?_some found
      rw [eq_of_keyword_starts (List.isPrefixOf_iff_prefix.1 start') start]

theorem isIdentifier_keyword (kind : Primitive) : isIdentifier kind.keyword = true := by
  cases kind <;> decide

theorem keyword_not_mem_metaWords (kind : Primitive) : kind.keyword ∉ metaWords := by
  cases kind <;> decide

theorem mem_reservedWords_iff {word : Text} :
    word ∈ reservedWords ↔ (∃ kind : Primitive, word = kind.keyword) ∨ word ∈ metaWords := by
  rw [reservedWords, List.mem_append, List.mem_map]
  constructor
  · rintro (⟨kind, -, rfl⟩ | metaWord)
    · exact Or.inl ⟨kind, rfl⟩
    · exact Or.inr metaWord
  · rintro (⟨kind, rfl⟩ | metaWord)
    · exact Or.inl ⟨kind, mem_all kind, rfl⟩
    · exact Or.inr metaWord

end Primitive

namespace Level

/-! ## The spellings of a level -/

/-- The spellings of a level. -/
inductive Written : Text → Level → Prop
  | array {item : Text} : Text.endsBlank item = false → Written (item ++ ['[', ']']) (.array item)
  | keyword (kind : Primitive) : Written kind.keyword (.primitive kind none)
  | name {word : Text} : isIdentifier word = true → word ∉ reservedWords →
    Written word (.object word [])
  | format {head format : Text} {kind : Primitive} : isIdentifier head = true →
    kind.keyword <+: head → isFormat format = true →
    Written (head ++ '#' :: format) (.primitive kind (some format))
  | generic {head inside : Text} {arguments : List Text} : isIdentifier head = true →
    head ∉ reservedWords → splitArguments inside = some arguments → arguments ≠ [] →
    Written (head ++ '<' :: inside ++ ['>']) (.object head arguments)

theorem written_of_ofBare {text : Text} {level : Level} (read : ofBare text = .ok level) :
    Written text level := by
  unfold ofBare at read
  split at read
  · cases read
  · rename_i name
    have name : isIdentifier text = true := by simpa using name
    split at read
    · rename_i kind found
      cases read
      rw [Primitive.ofKeyword?_eq_some_iff.1 found]
      exact .keyword kind
    · rename_i missing
      split at read
      · cases read
      · rename_i notMeta
        cases read
        refine .name name fun reserved => ?_
        rcases Primitive.mem_reservedWords_iff.1 reserved with ⟨kind, rfl⟩ | metaWord
        · rw [Primitive.ofKeyword?_eq_some_iff.2 rfl] at missing
          cases missing
        · exact notMeta metaWord

theorem written_of_ofFormat {head format : Text} {level : Level}
    (read : ofFormat head format = .ok level) : Written (head ++ '#' :: format) level := by
  unfold ofFormat at read
  split at read
  · cases read
  · rename_i name
    split at read
    · cases read
    · rename_i formed
      split at read
      · rename_i kind found
        cases read
        exact .format (by simpa using name) (Primitive.find?_keyword_eq_some_iff.1 found)
          (by simpa using formed)
      · split at read <;> cases read

theorem written_of_ofGeneric {head rest : Text} {level : Level}
    (read : ofGeneric head rest = .ok level) : Written (head ++ '<' :: rest) level := by
  unfold ofGeneric at read
  split at read
  · cases read
  · rename_i inside stripped
    obtain rfl := Text.stripEnd?_eq_some_iff.1 stripped
    split at read
    · cases read
    · rename_i name
      split at read
      · cases read
      · rename_i free
        split at read
        · cases read
        · cases read
        · rename_i arguments nonempty divided
          cases read
          rw [← List.cons_append, ← List.append_assoc]
          exact .generic (by simpa using name) free divided nonempty

theorem written_of_ofText {text : Text} {level : Level} (read : ofText text = .ok level) :
    Written text level := by
  unfold ofText at read
  split at read
  · cases read
  · split at read
    · rename_i item stripped
      obtain rfl := Text.stripEnd?_eq_some_iff.1 stripped
      split at read
      · cases read
      · rename_i tight
        cases read
        exact .array (by simpa using tight)
    · have parts := List.takeWhile_append_dropWhile (p := fun c => !endsHead c) (l := text)
      split at read
      · exact written_of_ofBare read
      · rename_i format dropped
        rw [dropped] at parts
        rw [← parts]
        exact written_of_ofFormat read
      · rename_i c rest notHash dropped
        rw [dropped] at parts
        have mark : c = '<' := by
          have stop := List.head?_dropWhile_not (p := fun c => !endsHead c) (l := text)
          rw [dropped] at stop
          simp only [List.head?_cons, endsHead, Bool.not_eq_false', Bool.or_eq_true,
            beq_iff_eq] at stop
          exact stop.resolve_right notHash
        subst mark
        rw [← parts]
        exact written_of_ofGeneric read

/-! ## Every spelling is read -/

theorem stripEnd?_brackets_eq_none {text : Text} (plain : ']' ∉ text) :
    Text.stripEnd? ['[', ']'] text = none := by
  refine Text.stripEnd?_eq_none fun start same => plain ?_
  rw [same]
  simp

theorem ofText_of_name {word : Text} (name : isIdentifier word = true) :
    ofText word = ofBare word := by
  have all : word.dropWhile (!endsHead ·) = [] :=
    List.dropWhile_eq_nil_iff.2 (endsHead_eq_false name)
  have other : Text.stripEnd? ['[', ']'] word = none :=
    stripEnd?_brackets_eq_none (not_mem_of_isIdentifier name (by decide))
  have nonempty : word.isEmpty = false := by simpa using ne_nil_of_isIdentifier name
  rw [ofText, nonempty, other, all]
  rfl

theorem ofText_of_hash {head format : Text} (name : isIdentifier head = true)
    (formed : isFormat format = true) :
    ofText (head ++ '#' :: format) = ofFormat head format := by
  have others := endsHead_eq_false name
  have other : Text.stripEnd? ['[', ']'] (head ++ '#' :: format) = none := by
    refine stripEnd?_brackets_eq_none fun member => ?_
    rcases List.mem_append.1 member with member | member
    · exact not_mem_of_isIdentifier name (by decide) member
    · rcases List.mem_cons.1 member with hash | member
      · cases hash
      · rcases isIdentifierChar_of_mem_format formed _ member with hc | hyphen
        · exact ne_of_isIdentifierChar hc (by decide) rfl
        · cases hyphen
  have nonempty : (head ++ '#' :: format).isEmpty = false := by simp
  rw [ofText, nonempty, other, List.dropWhile_append_of_pos others,
    List.takeWhile_append_of_pos others]
  simp [endsHead]

theorem ofText_of_bracket {head : Text} (name : isIdentifier head = true) (inside : Text) :
    ofText (head ++ '<' :: inside ++ ['>']) = ofGeneric head (inside ++ ['>']) := by
  have others := endsHead_eq_false name
  have other : Text.stripEnd? ['[', ']'] (head ++ '<' :: inside ++ ['>']) = none := by
    refine Text.stripEnd?_eq_none fun start same => ?_
    have last : (head ++ '<' :: inside ++ ['>']).getLast? = (start ++ ['['] ++ [']']).getLast? := by
      rw [same, List.append_assoc]
      rfl
    rw [List.getLast?_concat, List.getLast?_concat] at last
    cases last
  have nonempty : (head ++ '<' :: inside ++ ['>']).isEmpty = false := by simp
  rw [ofText, nonempty, other, List.append_assoc, List.dropWhile_append_of_pos others,
    List.takeWhile_append_of_pos others]
  simp [endsHead]

theorem ofText_of_written {text : Text} {level : Level} (written : Written text level) :
    ofText text = .ok level := by
  cases written with
  | @array item tight =>
    have nonempty : (item ++ ['[', ']']).isEmpty = false := by simp
    simp [ofText, nonempty, Text.stripEnd?_append, tight]
  | keyword kind =>
    rw [ofText_of_name (Primitive.isIdentifier_keyword kind), ofBare,
      Primitive.isIdentifier_keyword, Primitive.ofKeyword?_eq_some_iff.2 rfl]
    rfl
  | name name free =>
    have notMeta : text ∉ metaWords := fun member =>
      free (Primitive.mem_reservedWords_iff.2 (Or.inr member))
    have notKeyword : Primitive.ofKeyword? text = none := by
      refine Option.eq_none_iff_forall_ne_some.2 fun kind found => ?_
      exact free (Primitive.mem_reservedWords_iff.2
        (Or.inl ⟨kind, Primitive.ofKeyword?_eq_some_iff.1 found⟩))
    rw [ofText_of_name name, ofBare, name, notKeyword]
    simp [notMeta]
  | format name start formed =>
    rw [ofText_of_hash name formed, ofFormat, name, formed,
      Primitive.find?_keyword_eq_some_iff.2 start]
    rfl
  | @generic head inside arguments name free divided nonempty =>
    rw [ofText_of_bracket name, ofGeneric, Text.stripEnd?_append]
    simp only [name, Bool.not_true, Bool.false_eq_true, if_false, free, divided]

/-- Reading a level succeeds exactly on its spellings. -/
theorem ofText_eq_ok_iff {text : Text} {level : Level} :
    ofText text = .ok level ↔ Written text level :=
  ⟨written_of_ofText, ofText_of_written⟩

end Level

end ApiSchema
