import ApiSchema.Proofs.Template.Substitution
import ApiSchema.Proofs.TypeExpr.Nodes
import ApiSchema.TypeExpr.Outline

/-!
# What an outline tells

An outline has one line for each node and nothing that ends a node: where the nodes below one stop
is told by the indentation of the next line alone. `argumentLines_append_inj` reads the lines back.
Two lists of trees with the same lines in front of texts that are not indented as deep are the same
trees, but for the texts that they were read from. For this a label must not start with a blank and
must fit on its line. No label starts with a blank, and in the tree of a type that parses all of them
fit (`Derives.newline_not_mem_label`).
-/

namespace ApiSchema

namespace TypeExpr

/-! ## Nodes and what is below them -/

/-- What the line of a node says. -/
def label : TypeExpr → Text
  | primitive _ kind format => primitiveLabel kind format
  | object _ head _ => "object ".toList ++ head
  | array _ _ => "array".toList

/-- The nodes directly below a node. -/
def children : TypeExpr → List TypeExpr
  | primitive .. => []
  | object _ _ arguments => arguments
  | array _ item => [item]

section

variable (name head format : Text) (kind : Primitive) (arguments : List TypeExpr) (item : TypeExpr)

@[simp]
theorem label_primitive : (primitive name kind format).label = primitiveLabel kind format := rfl

@[simp]
theorem label_object : (object name head arguments).label = "object ".toList ++ head := rfl

@[simp]
theorem label_array : (array name item).label = "array".toList := rfl

end

variable {t u : TypeExpr} {ts us : List TypeExpr}

theorem outlineLines_eq (depth : Nat) (t : TypeExpr) :
    outlineLines depth t = outlineLine depth t.label :: argumentLines (depth + 1) t.children := by
  cases t with
  | primitive => rw [outlineLines, label_primitive, children, argumentLines]
  | object => rw [outlineLines, label_object, children]
  | array name item =>
    rw [outlineLines, label_array, children, argumentLines, argumentLines, List.append_nil]

theorem nodes_eq (t : TypeExpr) : t.nodes = t :: argumentNodes t.children := by
  cases t with
  | primitive => rw [nodes, children, argumentNodes]
  | object => rw [nodes, children]
  | array name item => rw [nodes, children, argumentNodes, argumentNodes, List.append_nil]

/-- The lines of trees side by side: the first node, what is below it, and what is beside it. -/
theorem flatten_argumentLines_cons (depth : Nat) (t : TypeExpr) (ts : List TypeExpr) :
    (argumentLines depth (t :: ts)).flatten = outlineLine depth t.label ++
      ((argumentLines (depth + 1) t.children).flatten ++ (argumentLines depth ts).flatten) := by
  rw [argumentLines, outlineLines_eq, List.cons_append, List.flatten_cons, List.flatten_append]

theorem argumentLines_singleton (t : TypeExpr) : (argumentLines 0 [t]).flatten = t.outline := by
  rw [argumentLines, argumentLines, List.append_nil, outline]

/-- Induction on trees side by side: below the first of them, and beside it. -/
@[elab_as_elim]
theorem forest_induction {P : List TypeExpr → Prop} (nil : P [])
    (cons : ∀ t ts, P t.children → P ts → P (t :: ts)) : ∀ ts, P ts
  | [] => nil
  | t :: ts => cons t ts (forest_induction nil cons t.children) (forest_induction nil cons ts)
termination_by ts => (argumentNodes ts).length
decreasing_by
  all_goals
    simp only [argumentNodes, nodes_eq t, List.length_append, List.length_cons]
    omega

theorem label_stripNames (t : TypeExpr) : t.stripNames.label = t.label := by
  cases t with
  | primitive => rw [stripNames, label_primitive, label_primitive]
  | object => rw [stripNames, label_object, label_object]
  | array => rw [stripNames, label_array, label_array]

theorem children_stripNames (t : TypeExpr) :
    t.stripNames.children = t.children.map stripNames := by
  cases t with
  | primitive => rw [stripNames, children, children, List.map_nil]
  | object => rw [stripNames, children, children]
  | array => rw [stripNames, children, children, List.map_singleton]

theorem argumentLines_map_stripNames (ts : List TypeExpr) :
    ∀ depth, argumentLines depth (ts.map stripNames) = argumentLines depth ts := by
  induction ts using forest_induction with
  | nil => intro depth; rfl
  | cons t ts below beside =>
    intro depth
    rw [List.map_cons, argumentLines, argumentLines, outlineLines_eq, outlineLines_eq,
      label_stripNames, children_stripNames, below, beside]

/-! ## Labels -/

theorem head?_primitiveLabel (kind : Primitive) (format : Text) :
    (primitiveLabel kind format).head? = some 'p' := by
  unfold primitiveLabel
  split <;> rfl

theorem primitiveLabel_inj {kind other : Primitive} {format otherFormat : Text}
    (same : primitiveLabel kind format = primitiveLabel other otherFormat) :
    kind = other ∧ format = otherFormat := by
  have starts : ∀ kind format, ∃ rest,
      primitiveLabel kind format = "primitive ".toList ++ (kind.keyword ++ rest) := by
    intro kind format
    unfold primitiveLabel
    split
    · exact ⟨[], by rw [List.append_nil]⟩
    · exact ⟨" (format: ".toList ++ format ++ [')'], by simp only [List.append_assoc]⟩
  obtain ⟨rest, first⟩ := starts kind format
  obtain ⟨otherRest, second⟩ := starts other otherFormat
  have keywords := first.symm.trans (same.trans second)
  rw [List.append_cancel_left_eq] at keywords
  obtain rfl := Primitive.eq_of_keyword_starts ⟨rest, rfl⟩ ⟨otherRest, keywords.symm⟩
  refine ⟨rfl, ?_⟩
  unfold primitiveLabel at same
  split at same <;> split at same
  · simp_all
  · simp at same
  · simp at same
  · simpa using same

/-- The label of a node and the trees below it make up the node. -/
theorem stripNames_eq_of_label (labels : t.label = u.label)
    (below : t.children.map stripNames = u.children.map stripNames) :
    t.stripNames = u.stripNames := by
  have letters := congrArg List.head? labels
  cases t with
  | primitive name kind format =>
    cases u with
    | primitive =>
      obtain ⟨rfl, rfl⟩ := primitiveLabel_inj labels
      rw [stripNames, stripNames]
    | object | array => simp [head?_primitiveLabel] at letters
  | object name head arguments =>
    cases u with
    | object =>
      rw [label_object, label_object, List.append_cancel_left_eq] at labels
      rw [children, children] at below
      rw [stripNames, stripNames, labels, below]
    | primitive => simp [head?_primitiveLabel] at letters
    | array => simp at letters
  | array name item =>
    cases u with
    | array =>
      rw [children, children, List.map_singleton, List.map_singleton] at below
      rw [stripNames, stripNames, List.singleton_inj.1 below]
    | primitive => simp [head?_primitiveLabel] at letters
    | object => simp at letters

theorem head?_label_ne_blank (t : TypeExpr) : t.label.head? ≠ some ' ' := by
  cases t with
  | primitive => simp [head?_primitiveLabel]
  | object => simp
  | array => simp

/-! ## Lines -/

/-- A text with blanks in front has at least as many as it is given. -/
theorem le_of_replicate_append {m n : Nat} {a b : Text} (inked : a.head? ≠ some ' ')
    (same : List.replicate m ' ' ++ a = List.replicate n ' ' ++ b) : n ≤ m := by
  by_contra more
  obtain ⟨k, rfl⟩ := Nat.exists_eq_add_of_lt (Nat.lt_of_not_le more)
  rw [Nat.add_assoc, List.replicate_add, List.append_assoc, List.append_cancel_left_eq] at same
  rw [same] at inked
  exact inked rfl

variable {depth other : Nat} {text otherText rest otherRest : Text}

/-- A line whose label does not start with a blank is no line further down. -/
theorem le_of_outlineLine_append (inked : text.head? ≠ some ' ')
    (same : outlineLine depth text ++ rest = outlineLine other otherText ++ otherRest) :
    other ≤ depth := by
  simp only [outlineLine, List.append_assoc] at same
  have blanks := le_of_replicate_append (by cases text <;> simp_all) same
  omega

theorem takeWhile_append_newline (fits : '\n' ∉ text) :
    (text ++ '\n' :: rest).takeWhile (· != '\n') = text := by
  have inLine : ∀ c ∈ text, (c != '\n') = true := by
    intro c member
    exact bne_iff_ne.2 (ne_of_mem_of_not_mem member fits)
  rw [List.takeWhile_append_of_pos inLine, List.takeWhile_cons_of_neg (by simp), List.append_nil]

theorem outlineLine_append_inj (inked : text.head? ≠ some ' ') (fits : '\n' ∉ text)
    (otherInked : otherText.head? ≠ some ' ') (otherFits : '\n' ∉ otherText)
    (same : outlineLine depth text ++ rest = outlineLine other otherText ++ otherRest) :
    text = otherText ∧ rest = otherRest := by
  obtain rfl : depth = other :=
    Nat.le_antisymm (le_of_outlineLine_append otherInked same.symm)
      (le_of_outlineLine_append inked same)
  simp only [outlineLine, List.append_assoc, List.append_cancel_left_eq,
    List.singleton_append] at same
  have labels := congrArg (List.takeWhile (· != '\n')) same
  rw [takeWhile_append_newline fits, takeWhile_append_newline otherFits] at labels
  subst labels
  exact ⟨rfl, (List.cons.inj (List.append_cancel_left same)).2⟩

/-! ## Reading an outline back -/

/-- The text does not start with a line as deep as `depth`. -/
def Shallow (depth : Nat) (text : Text) : Prop :=
  ∀ other label rest, text = outlineLine other label ++ rest → other < depth

theorem shallow_nil (depth : Nat) : Shallow depth [] := by
  intro other label rest same
  simp [outlineLine] at same

/-- What follows the lines of trees is less deep than what is below the last of them. -/
theorem Shallow.below (shallow : Shallow depth rest) (ts : List TypeExpr) :
    Shallow (depth + 1) ((argumentLines depth ts).flatten ++ rest) := by
  intro other label after same
  cases ts with
  | nil => exact Nat.lt_succ_of_lt (shallow other label after same)
  | cons t ts =>
    rw [flatten_argumentLines_cons, List.append_assoc] at same
    exact Nat.lt_succ_of_le (le_of_outlineLine_append t.head?_label_ne_blank same)

/-- A text that starts with the lines of a tree is as deep as the tree. -/
theorem not_shallow_argumentLines_cons (t : TypeExpr) (ts : List TypeExpr) :
    ¬ Shallow depth ((argumentLines depth (t :: ts)).flatten ++ rest) := by
  intro shallow
  rw [flatten_argumentLines_cons, List.append_assoc] at shallow
  exact Nat.lt_irrefl depth (shallow _ _ _ rfl)

/-- Trees are told by their lines, which stand in front of a text that is not as deep. -/
theorem argumentLines_append_inj (fits : ∀ node ∈ argumentNodes ts, '\n' ∉ node.label) :
    ∀ {depth us rest otherRest}, (∀ node ∈ argumentNodes us, '\n' ∉ node.label) →
      Shallow depth rest → Shallow depth otherRest →
      (argumentLines depth ts).flatten ++ rest = (argumentLines depth us).flatten ++ otherRest →
      ts.map stripNames = us.map stripNames ∧ rest = otherRest := by
  induction ts using forest_induction with
  | nil =>
    intro depth us rest otherRest _ shallow _ same
    cases us with
    | nil => exact ⟨rfl, same⟩
    | cons u us =>
      obtain rfl : rest = (argumentLines depth (u :: us)).flatten ++ otherRest := same
      exact absurd shallow (not_shallow_argumentLines_cons u us)
  | cons t ts below beside =>
    intro depth us rest otherRest otherFits shallow otherShallow same
    cases us with
    | nil =>
      obtain rfl : (argumentLines depth (t :: ts)).flatten ++ rest = otherRest := same
      exact absurd otherShallow (not_shallow_argumentLines_cons t ts)
    | cons u us =>
      simp only [argumentNodes, nodes_eq, List.cons_append, List.forall_mem_cons,
        List.forall_mem_append] at fits otherFits
      simp only [flatten_argumentLines_cons, List.append_assoc] at same
      obtain ⟨labels, same⟩ := outlineLine_append_inj t.head?_label_ne_blank fits.1
        u.head?_label_ne_blank otherFits.1 same
      obtain ⟨trees, same⟩ := below fits.2.1 otherFits.2.1 (shallow.below ts)
        (otherShallow.below us) same
      obtain ⟨others, rests⟩ := beside fits.2.2 otherFits.2.2 shallow otherShallow same
      rw [List.map_cons, List.map_cons, stripNames_eq_of_label labels trees, others]
      exact ⟨rfl, rests⟩

end TypeExpr

/-! ## Outlines of types that parse -/

theorem newline_not_mem_primitiveLabel (kind : Primitive) {format : Text}
    (formed : isFormat format = true) : '\n' ∉ TypeExpr.primitiveLabel kind format := by
  have inKeyword : '\n' ∉ kind.keyword :=
    not_mem_of_isIdentifier (Primitive.isIdentifier_keyword kind) (by decide)
  have inFormat : '\n' ∉ format := by
    intro member
    rcases isIdentifierChar_of_mem_format formed _ member with hc | hyphen
    · exact absurd hc (by decide)
    · cases hyphen
  unfold TypeExpr.primitiveLabel
  split
  · simp [inKeyword]
  · simp [inKeyword, inFormat]

/-- The label of a derived tree fits on its line. -/
theorem Derives.newline_not_mem_label {text : Text} {t : TypeExpr} (derives : Derives text t) :
    '\n' ∉ t.label := by
  have inHead : ∀ {head : Text}, isIdentifier head = true → '\n' ∉ "object ".toList ++ head := by
    intro head name
    simp [not_mem_of_isIdentifier name (by decide : isIdentifierChar '\n' = false)]
  cases derives with
  | name name _ =>
    unfold TypeExpr.ofName
    split
    · rename_i kind _
      exact newline_not_mem_primitiveLabel kind (by cases kind <;> decide)
    · exact inHead name
  | format _ _ formed => exact newline_not_mem_primitiveLabel _ formed
  | generic name => exact inHead name
  | array => simp

/-- The outline of a type is determined by its tree, whatever texts the nodes were read from, and
determines it. -/
theorem outline_eq_iff_same_tree {text other : Text} {t u : TypeExpr}
    (parsed : TypeExpr.parse text = .ok t) (parsedOther : TypeExpr.parse other = .ok u) :
    t.outline = u.outline ↔ t.stripNames = u.stripNames := by
  have fits : ∀ {text : Text} {t : TypeExpr}, TypeExpr.parse text = .ok t →
      ∀ node ∈ TypeExpr.argumentNodes [t], '\n' ∉ node.label := by
    intro text t parsed node member
    rw [TypeExpr.argumentNodes, TypeExpr.argumentNodes, List.append_nil] at member
    exact ((parse_eq_ok_iff.1 parsed).of_mem_nodes member).1.newline_not_mem_label
  rw [← t.argumentLines_singleton, ← u.argumentLines_singleton]
  constructor
  · intro same
    have alike := (TypeExpr.argumentLines_append_inj (fits parsed) (fits parsedOther)
      (TypeExpr.shallow_nil 0) (TypeExpr.shallow_nil 0) (congrArg (· ++ []) same)).1
    exact List.singleton_inj.1 alike
  · intro same
    rw [← TypeExpr.argumentLines_map_stripNames, ← TypeExpr.argumentLines_map_stripNames [u],
      List.map_singleton, List.map_singleton, same]

/-- One type in two spellings, the second with its default format written out, and another one with
an empty format. -/
theorem outline_eq_iff_same_tree_maps :
    ∃ t u v, TypeExpr.parse " Map< K ,integer>[]".toList = .ok t ∧
      TypeExpr.parse "Map<K,integer#int32,>[]".toList = .ok u ∧
      TypeExpr.parse "Map<K, integer#>[]".toList = .ok v ∧
      t.outline = u.outline ∧ t.stripNames = u.stripNames ∧
      t.outline ≠ v.outline ∧ t.stripNames ≠ v.stripNames := by
  have shown : (TypeExpr.parse " Map< K ,integer>[]".toList).map TypeExpr.outline =
      .ok "array\n  object Map\n    object K\n    primitive integer (format: int32)\n".toList := by
    decide +kernel
  have respelled : (TypeExpr.parse "Map<K,integer#int32,>[]".toList).map TypeExpr.outline =
      .ok "array\n  object Map\n    object K\n    primitive integer (format: int32)\n".toList := by
    decide +kernel
  have unformatted : (TypeExpr.parse "Map<K, integer#>[]".toList).map TypeExpr.outline =
      .ok "array\n  object Map\n    object K\n    primitive integer\n".toList := by
    decide +kernel
  obtain ⟨t, parsed, outline⟩ := map_eq_ok_iff.1 shown
  obtain ⟨u, parsedOther, same⟩ := map_eq_ok_iff.1 respelled
  obtain ⟨v, parsedThird, different⟩ := map_eq_ok_iff.1 unformatted
  have alike : t.outline = u.outline := outline.trans same.symm
  have unlike : t.outline ≠ v.outline := by
    rw [outline, different]
    decide +kernel
  exact ⟨t, u, v, parsed, parsedOther, parsedThird, alike,
    (outline_eq_iff_same_tree parsed parsedOther).1 alike, unlike,
    (outline_eq_iff_same_tree parsed parsedThird).not.1 unlike⟩

end ApiSchema
