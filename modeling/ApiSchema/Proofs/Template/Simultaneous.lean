import Mathlib.Data.List.Perm.Basic
import ApiSchema.Proofs.Template.Substitution

/-!
# Filling in is one substitution

An instance is made in two phases: placeholders for parameters, then arguments for placeholders, one
placeholder after the other. Each round of the second phase searches the whole text, also what
earlier rounds have put there. It finds nothing there, because no argument has a placeholder in it,
so both phases together come to one pass over the words of the type, in whatever order the rounds
are made (`Template.instantiate_eq_substituteWords`).
-/

namespace ApiSchema

/-- A table with distinct keys may be put into any order. -/
theorem lookup_perm {α : Type} {order table : List (Text × α)} (perm : order.Perm table)
    (distinct : (table.map Prod.fst).Nodup) (key : Text) : order.lookup key = table.lookup key := by
  have distinctOrder : (order.map Prod.fst).Nodup := (perm.map Prod.fst).nodup_iff.2 distinct
  refine Option.ext fun value => ⟨fun found => ?_, fun found => ?_⟩
  · exact lookup_of_mem distinct (perm.mem_iff.1 (mem_of_lookup found))
  · exact lookup_of_mem distinctOrder (perm.mem_iff.2 (mem_of_lookup found))

namespace Template

variable {parameters arguments : List Text} {type : Text}

/-- The placeholders may be filled in in any order. -/
theorem fill_of_perm (names : ∀ parameter ∈ parameters, isIdentifier parameter = true)
    (distinct : parameters.Nodup) (plain : ∀ a ∈ arguments, '«' ∉ a)
    (arity : arguments.length = parameters.length) (unmarked : '«' ∉ type)
    {order : List (Text × Text)} (perm : order.Perm ((parameters.map placeholder).zip arguments)) :
    fill (order.map Prod.fst) (order.map Prod.snd) (markParameters parameters type) =
      substituteWords (fun w => (parameters.zip arguments).lookup w) type := by
  rw [List.zip_map_left] at perm
  obtain ⟨pairs, rfl, reordered⟩ :=
    (congrFun₂ (List.eq_map_comp_perm (Prod.map placeholder id)) order _).mpr perm
  have sources : (parameters.zip arguments).map Prod.fst = parameters := List.map_fst_zip arity.ge
  have values : (parameters.zip arguments).map Prod.snd = arguments := List.map_snd_zip arity.le
  -- the reordered pairs are parameters and arguments in their own right, of the same marked text
  have sameParameters : (pairs.map Prod.fst).Perm parameters := by
    have mapped := reordered.map Prod.fst
    rwa [sources] at mapped
  have sameArguments : (pairs.map Prod.snd).Perm arguments := by
    have mapped := reordered.map Prod.snd
    rwa [values] at mapped
  have marked : markParameters parameters type = markParameters (pairs.map Prod.fst) type := by
    simp only [markParameters, sameParameters.mem_iff]
  have zipped : (pairs.map Prod.fst).zip (pairs.map Prod.snd) = pairs :=
    (List.zip_of_prod rfl rfl).symm
  have tables : ∀ w, pairs.lookup w = (parameters.zip arguments).lookup w :=
    lookup_perm reordered (by rwa [sources])
  have filled : fill _ _ (markParameters _ type) = _ := fill_markParameters
    (fun p member => names p (sameParameters.mem_iff.1 member))
    (fun a member => plain a (sameArguments.mem_iff.1 member)) (by simp) unmarked
  rw [zipped, funext tables, List.map_map] at filled
  rw [marked, List.map_map, List.map_map]
  exact filled

/-- The type of a property in an instance, well formed or not, is the type as it was given with the
arguments in the places of the parameters, in one pass over its words. So it is in whatever order
the placeholders of the prepared type are filled in. -/
theorem instantiate_eq_substituteWords {d : Definition} {template : Template}
    {arguments : List TypeExpr} {p : Property} {i : Nat}
    (prepared : Template.prepare d = .ok template) (listed : d.properties[i]? = some p)
    (unmarked : '«' ∉ p.type ∧ '»' ∉ p.type)
    (parsed : ∀ a ∈ arguments, ∃ text, TypeExpr.parse text = .ok a)
    (arity : arguments.length = template.placeholders.length) :
    ∃ q, template.properties[i]? = some q ∧
      (template.instantiate (arguments.map TypeExpr.name)).properties[i]? = some { p with
        type := substituteWords
          (fun w => (d.distinctParameters.zip (arguments.map TypeExpr.name)).lookup w) p.type } ∧
      ∀ order : List (Text × Text),
        order.Perm (template.placeholders.zip (arguments.map TypeExpr.name)) →
        fill (order.map Prod.fst) (order.map Prod.snd) q.type = substituteWords
          (fun w => (d.distinctParameters.zip (arguments.map TypeExpr.name)).lookup w) p.type := by
  obtain ⟨names, rfl⟩ := prepare_eq_ok prepared
  have proper : ∀ parameter ∈ d.distinctParameters, isIdentifier parameter = true :=
    fun parameter member => names parameter (List.mem_eraseDups.1 member)
  have plain : ∀ name ∈ arguments.map TypeExpr.name, '«' ∉ name := by
    intro name member
    obtain ⟨a, argument, rfl⟩ := List.mem_map.1 member
    obtain ⟨text, read⟩ := parsed a argument
    exact opening_not_mem_of_derives (derives_name_of_parse read)
  have count : (arguments.map TypeExpr.name).length = d.distinctParameters.length := by
    simpa using arity
  have direct := fill_markParameters proper plain count unmarked.1
  refine ⟨{ p with type := markParameters d.distinctParameters p.type }, ?_, ?_, fun order perm => ?_⟩
  · rw [List.getElem?_map, listed, Option.map_some]
  · simp only [instantiate, List.getElem?_map, listed, Option.map_some, direct]
  · exact fill_of_perm proper (Registry.nodup_eraseDups _) plain count unmarked.1 perm

/-- Pairs of which a component refers to a swapped pair. -/
def swappedPairs : Definition :=
  { name := "Pair".toList
    parameters := ["K".toList, "V".toList, "K".toList]
    properties := [.new "back".toList "Pair< V,K >[] < string#K".toList true []] }

/-- The arguments spell the parameters the other way round, and the type is malformed. -/
theorem instantiate_eq_substituteWords_swappedPairs :
    ∃ template v k q, Template.prepare swappedPairs = .ok template ∧
      TypeExpr.parse "V".toList = .ok v ∧ TypeExpr.parse " K".toList = .ok k ∧
      template.properties[0]? = some q ∧ q.type = "Pair<«V», «K»>[]<string#K".toList ∧
      ((template.instantiate [v.name, k.name]).properties[0]?).map Property.type =
        some "Pair<K, V>[]<string#K".toList ∧
      fill ["«V»".toList, "«K»".toList] [k.name, v.name] q.type =
        "Pair<K, V>[]<string#K".toList := by
  obtain ⟨v, hv⟩ : ∃ v, TypeExpr.parse "V".toList = .ok v :=
    exists_ok_of_isSome (by decide +kernel)
  obtain ⟨k, hk⟩ : ∃ k, TypeExpr.parse " K".toList = .ok k :=
    exists_ok_of_isSome (by decide +kernel)
  obtain ⟨template, prepared⟩ : ∃ template, Template.prepare swappedPairs = .ok template :=
    exists_ok_of_isSome (by decide +kernel)
  have parsed : ∀ a ∈ [v, k], ∃ text, TypeExpr.parse text = .ok a := by
    intro a member
    rcases List.mem_cons.1 member with rfl | member
    · exact ⟨_, hv⟩
    · exact ⟨_, List.mem_singleton.1 member ▸ hk⟩
  have spelledV : v.name = "V".toList := (parse_eq_ok_iff.1 hv).name_eq
  have spelledK : k.name = "K".toList := (parse_eq_ok_iff.1 hk).name_eq
  have placeholders : template.placeholders = ["«K»".toList, "«V»".toList] := by
    rw [(prepare_eq_ok prepared).2]
    rfl
  have swapped : [("«V»".toList, k.name), ("«K»".toList, v.name)].Perm
      (template.placeholders.zip ([v, k].map TypeExpr.name)) := by
    rw [placeholders]
    exact .swap ..
  obtain ⟨q, marked, instantiated, anyOrder⟩ := instantiate_eq_substituteWords prepared
    (i := 0) rfl ⟨by decide, by decide⟩ parsed (by rw [placeholders]; rfl)
  have spelled : q.type = "Pair<«V», «K»>[]<string#K".toList := by
    rw [(prepare_eq_ok prepared).2] at marked
    cases marked
    decide +kernel
  have direct : substituteWords (fun w =>
      (swappedPairs.distinctParameters.zip ([v, k].map TypeExpr.name)).lookup w)
      "Pair< V,K >[] < string#K".toList = "Pair<K, V>[]<string#K".toList := by
    rw [List.map_cons, List.map_cons, spelledV, spelledK]
    decide +kernel
  refine ⟨template, v, k, q, prepared, hv, hk, marked, spelled, ?_, ?_⟩
  · exact (congrArg (Option.map Property.type) instantiated).trans (congrArg some direct)
  · exact (anyOrder _ swapped).trans direct

end Template

end ApiSchema
