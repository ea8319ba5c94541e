import ApiSchema.Proofs.TypeExpr.Naming

/-!
# The nodes of a type

`TypeExpr.nodes` lists a tree from the top down. Every node of a parsed tree is named after a piece
of the text, and its name is derived on its own, with the node for a tree (`Derives.of_mem_nodes`).
So an argument can be cut out of a type, put into another as text and read again, which is what
instances live on (`nodes_parse_back`).
-/

namespace ApiSchema

namespace TypeExpr

mutual

/-- The nodes of a tree, each before those below it. -/
def nodes : TypeExpr → List TypeExpr
  | primitive name kind format => [primitive name kind format]
  | object name head arguments => object name head arguments :: argumentNodes arguments
  | array name item => array name item :: item.nodes

/-- The nodes of arguments, one after the other. -/
def argumentNodes : List TypeExpr → List TypeExpr
  | [] => []
  | argument :: arguments => argument.nodes ++ argumentNodes arguments

end

theorem argumentNodes_eq_flatMap (arguments : List TypeExpr) :
    argumentNodes arguments = arguments.flatMap nodes := by
  induction arguments with
  | nil => rfl
  | cons a arguments ih => rw [argumentNodes, ih, List.flatMap_cons]

theorem nodes_ofName (word : Text) : (ofName word).nodes = [ofName word] := by
  unfold ofName
  split
  · rfl
  · rw [nodes, argumentNodes]

end TypeExpr

/-! ## Nodes of a derivation -/

/-- Each node of a derived tree is derived from its name, which stands in the text. -/
theorem Derives.of_mem_nodes {text : Text} {t node : TypeExpr} (derives : Derives text t)
    (member : node ∈ t.nodes) : Derives node.name node ∧ node.name <:+: text := by
  induction derives with
  | @name word name notMeta =>
    rw [TypeExpr.nodes_ofName, List.mem_singleton] at member
    subst member
    rw [TypeExpr.name_ofName]
    exact ⟨.name name notMeta, List.infix_rfl⟩
  | format name start formed =>
    rw [TypeExpr.nodes, List.mem_singleton] at member
    subst member
    exact ⟨.format name start formed, List.infix_rfl⟩
  | @generic head segments name free padded cores nonempty ih =>
    rw [TypeExpr.nodes, TypeExpr.argumentNodes_eq_flatMap] at member
    rcases List.mem_cons.1 member with rfl | below
    · exact ⟨.generic name free padded cores nonempty, List.infix_rfl⟩
    · obtain ⟨tree, listed, inside⟩ := List.mem_flatMap.1 below
      obtain ⟨segment, known, own⟩ := List.mem_filterMap.1 listed
      cases segment with
      | blank => cases own
      | argument before core after tree' =>
        cases own
        obtain ⟨derived, stands⟩ := ih before core after tree known inside
        -- from the argument to its segment, to the list of segments, to the whole text
        have inSegment : core <:+: (Segment.argument before core after tree).text :=
          ⟨before, after, rfl⟩
        have inList := Text.infix_join_of_mem [','] (List.mem_map_of_mem (f := Segment.text) known)
        exact ⟨derived, (stands.trans inSegment).trans
          (inList.trans ⟨head ++ ['<'], ['>'], by simp⟩)⟩
  | @array item tree derives ih =>
    rw [TypeExpr.nodes] at member
    rcases List.mem_cons.1 member with rfl | below
    · exact ⟨.array derives, List.infix_rfl⟩
    · obtain ⟨derived, stands⟩ := ih below
      exact ⟨derived, stands.trans (List.prefix_append _ _).isInfix⟩

/-- A type is spelled as its element is, with a pair of brackets for each array layer. -/
theorem Derives.name_eq_element_append {text : Text} {t : TypeExpr} (derives : Derives text t) :
    t.name = t.element.name ++ (List.replicate t.arrayDepth ['[', ']']).flatten := by
  have bare : ∀ {t : TypeExpr}, t.element = t → t.arrayDepth = 0 →
      t.name = t.element.name ++ (List.replicate t.arrayDepth ['[', ']']).flatten := by
    intro t same flat
    rw [same, flat, List.replicate_zero, List.flatten_nil, List.append_nil]
  induction derives with
  | @name word =>
    refine bare (TypeExpr.element_ofName word) ?_
    unfold TypeExpr.ofName
    split <;> rfl
  | format => exact bare rfl rfl
  | generic => exact bare rfl rfl
  | @array item tree derives ih =>
    rw [TypeExpr.name, TypeExpr.element, TypeExpr.arrayDepth, List.replicate_succ',
      List.flatten_concat, ← List.append_assoc, ← ih, derives.name_eq]

/-- The tree of a text is named after the trimmed text. The name of each of its nodes stands in the
text, parses to that very node, and is the name of its element behind as many pairs of brackets as
the node has array layers. -/
theorem nodes_parse_back {text : Text} {t : TypeExpr} (parsed : TypeExpr.parse text = .ok t) :
    t.name = Text.trim text ∧ ∀ node ∈ t.nodes, node.name <:+: text ∧
      TypeExpr.parse node.name = .ok node ∧
      node.name = node.element.name ++ (List.replicate node.arrayDepth ['[', ']']).flatten := by
  have derives := parse_eq_ok_iff.1 parsed
  refine ⟨derives.name_eq, fun node member => ?_⟩
  obtain ⟨derived, stands⟩ := derives.of_mem_nodes member
  exact ⟨stands.trans (Text.isInfix_trim text), parse_of_derives derived,
    derived.name_eq_element_append⟩

/-- An argument with arguments of its own, between blanks and below two arrays. -/
theorem nodes_parse_back_rows :
    ∃ t node, TypeExpr.parse " Map< K[] ,Row<string#date ,\tV>[] >[][]\n".toList = .ok t ∧
      t.name = "Map< K[] ,Row<string#date ,\tV>[] >[][]".toList ∧
      node ∈ t.nodes ∧ node.name = "Row<string#date ,\tV>[]".toList ∧
      node.name <:+: " Map< K[] ,Row<string#date ,\tV>[] >[][]\n".toList ∧
      TypeExpr.parse "Row<string#date ,\tV>[]".toList = .ok node ∧
      node.name = node.element.name ++ (List.replicate node.arrayDepth ['[', ']']).flatten := by
  obtain ⟨t, parsed⟩ :
      ∃ t, TypeExpr.parse " Map< K[] ,Row<string#date ,\tV>[] >[][]\n".toList = .ok t :=
    exists_ok_of_isSome (by decide +kernel)
  obtain ⟨named, each⟩ := nodes_parse_back parsed
  have listed : ((TypeExpr.parse " Map< K[] ,Row<string#date ,\tV>[] >[][]\n".toList).toOption.any
      fun t => decide ("Row<string#date ,\tV>[]".toList ∈ t.nodes.map TypeExpr.name)) = true := by
    decide +kernel
  rw [parsed] at listed
  obtain ⟨node, member, spelled⟩ := List.mem_map.1 (of_decide_eq_true listed)
  obtain ⟨stands, parsedBack, layered⟩ := each node member
  have trimmed : Text.trim " Map< K[] ,Row<string#date ,\tV>[] >[][]\n".toList =
      "Map< K[] ,Row<string#date ,\tV>[] >[][]".toList := by decide +kernel
  rw [spelled] at parsedBack
  exact ⟨t, node, parsed, named.trans trimmed, member, spelled, stands, parsedBack, layered⟩

end ApiSchema
