import ApiSchema.Proofs.Token
import ApiSchema.Template

/-!
# Placeholders stand for parameters

An instance is made in two steps: the parameters in a type are marked by placeholders, and the
placeholders are replaced by arguments one after the other. The second step searches the text, and
`Becomes` says of a piece that the search does the same to it whatever follows, so that no match
reaches over the end of a piece. `fill_markParameters` concludes that both steps together replace
the parameters at once.
-/

namespace ApiSchema

/-! ## Preparing a definition -/

theorem Template.prepare_eq_ok {d : Definition} {template : Template}
    (prepared : Template.prepare d = .ok template) :
    (∀ parameter ∈ d.parameters, isIdentifier parameter = true) ∧ template =
      { name := d.name
        description := d.description
        placeholders := d.distinctParameters.map placeholder
        properties := d.properties.map fun p =>
          { p with type := markParameters d.distinctParameters p.type } } := by
  unfold Template.prepare at prepared
  split at prepared
  · cases prepared
  · rename_i proper
    cases prepared
    exact ⟨fun parameter member => by simpa using List.find?_eq_none.1 proper parameter member, rfl⟩

theorem Template.prepare_of_identifiers {d : Definition}
    (names : ∀ parameter ∈ d.parameters, isIdentifier parameter = true) :
    prepare d = .ok
      { name := d.name
        description := d.description
        placeholders := d.distinctParameters.map placeholder
        properties := d.properties.map fun p =>
          { p with type := markParameters d.distinctParameters p.type } } := by
  have unfound : d.parameters.find? (!isIdentifier ·) = none :=
    List.find?_eq_none.2 fun parameter member => by simp [names parameter member]
  rw [prepare, unfound]

/-- The type of a property in an instance: parameters are marked by placeholders, and these are
replaced by the arguments one after the other. -/
def Definition.filledType (source : Definition) (arguments : List Text) (type : Text) : Text :=
  Template.fill (source.distinctParameters.map placeholder) arguments
    (markParameters source.distinctParameters type)

/-! ## Searching piece by piece -/

/-- Replacing `needle` turns `piece` into `result`, whatever follows. -/
def Becomes (needle replacement piece result : Text) : Prop :=
  ∀ rest : Text, Text.replace needle replacement (piece ++ rest) =
    result ++ Text.replace needle replacement rest

variable {needle replacement : Text}

theorem Becomes.append {a a' b b' : Text} (ha : Becomes needle replacement a a')
    (hb : Becomes needle replacement b b') :
    Becomes needle replacement (a ++ b) (a' ++ b') := by
  intro rest
  rw [List.append_assoc, ha, hb, List.append_assoc]

theorem Becomes.replace_eq {piece result : Text}
    (becomes : Becomes needle replacement piece result) :
    Text.replace needle replacement piece = result := by
  have whole := becomes []
  rwa [Text.replace, List.append_nil, List.append_nil] at whole

theorem replace_of_start (nonempty : needle ≠ []) (rest : Text) :
    Text.replace needle replacement (needle ++ rest) =
      replacement ++ Text.replace needle replacement rest := by
  cases needle with
  | nil => exact absurd rfl nonempty
  | cons c needle =>
    have start : (c :: needle).isPrefixOf (c :: (needle ++ rest)) = true :=
      List.isPrefixOf_iff_prefix.2 ⟨rest, rfl⟩
    rw [List.cons_append, Text.replace, if_pos ⟨nonempty, start⟩]
    simp

theorem replace_of_not_start {c : Char} {rest : Text} (other : ¬ needle <+: c :: rest) :
    Text.replace needle replacement (c :: rest) =
      c :: Text.replace needle replacement rest := by
  rw [Text.replace, if_neg fun start => other (List.isPrefixOf_iff_prefix.1 start.2)]

theorem becomes_of_not_mem {parameter piece : Text} (plain : '«' ∉ piece) :
    Becomes (placeholder parameter) replacement piece piece := by
  intro rest
  induction piece with
  | nil => rfl
  | cons c piece ih =>
    rw [List.mem_cons, not_or] at plain
    rw [List.cons_append, replace_of_not_start, ih plain.2, List.cons_append]
    intro start
    exact plain.1 (List.cons_prefix_cons.1 start).1

theorem becomes_placeholder (parameter : Text) :
    Becomes (placeholder parameter) replacement (placeholder parameter) replacement := by
  intro rest
  exact replace_of_start (by simp [placeholder]) rest

/-- A text up to the first closing mark is determined by what it is the start of. -/
theorem eq_of_closed_start {a b rest : Text} (ha : '»' ∉ a) (hb : '»' ∉ b)
    (start : a ++ ['»'] <+: b ++ '»' :: rest) : a = b := by
  induction a generalizing b with
  | nil =>
    cases b with
    | nil => rfl
    | cons d b => exact absurd (List.cons_prefix_cons.1 start).1 (by simp_all)
  | cons c a ih =>
    rw [List.mem_cons, not_or] at ha
    cases b with
    | nil => exact absurd (List.cons_prefix_cons.1 start).1.symm ha.1
    | cons d b =>
      rw [List.mem_cons, not_or] at hb
      obtain ⟨rfl, later⟩ := List.cons_prefix_cons.1 start
      rw [ih ha.2 hb.2 later]

/-- The placeholder of another parameter is passed over. -/
theorem becomes_other_placeholder {parameter other : Text} (different : parameter ≠ other)
    (hp : '»' ∉ parameter) (ho : '»' ∉ other) (unopened : '«' ∉ other) :
    Becomes (placeholder parameter) replacement (placeholder other) (placeholder other) := by
  intro rest
  have tail : Becomes (placeholder parameter) replacement (other ++ ['»']) (other ++ ['»']) :=
    becomes_of_not_mem (by simpa using unopened)
  show Text.replace _ _ ('«' :: (other ++ ['»'] ++ rest)) = '«' :: (other ++ ['»'] ++ _)
  rw [replace_of_not_start, tail rest]
  intro start
  have start := (List.cons_prefix_cons.1 start).2
  rw [List.append_assoc] at start
  exact different (eq_of_closed_start hp ho start)

/-! ## Both steps at once -/

theorem Token.mem_text_mark {c d : Char} (member : c ∈ (Token.mark d).text) : c = d ∨ c = ' ' := by
  rw [Token.text] at member
  split at member
  · rename_i comma
    rw [comma]
    simpa using member
  · exact Or.inl (List.mem_singleton.1 member)

/-- A piece of a text consists of characters of that text and the blank behind a comma. -/
theorem Token.mem_text_of_mem_scan {text : Text} {token : Token} (listed : token ∈ Token.scan text)
    {c : Char} (member : c ∈ token.text) : c ∈ text ∨ c = ' ' := by
  fun_induction Token.scan text with
  | case1 => cases listed
  | case2 d rest _ ih => exact (ih listed).imp_left (List.mem_cons_of_mem _)
  | case3 d rest _ _ ih =>
    rcases List.mem_cons.1 listed with rfl | listed
    · rcases Token.mem_text_mark member with rfl | blank
      · exact Or.inl (List.mem_cons_self ..)
      · exact Or.inr blank
    · exact (ih listed).imp_left (List.mem_cons_of_mem _)
  | case4 d rest _ _ ih =>
    rcases List.mem_cons.1 listed with rfl | listed
    · rcases List.mem_cons.1 member with rfl | member
      · exact Or.inl (List.mem_cons_self ..)
      · exact Or.inl (List.mem_cons_of_mem _ ((List.takeWhile_sublist _).subset member))
    · exact (ih listed).imp_left fun later =>
        List.mem_cons_of_mem _ ((List.dropWhile_suffix _).subset later)

/-- Where the images of the words become one another, so do the rewritten texts. -/
theorem becomes_render_substitute {parameter : Text} {σ τ : Text → Option Text} (flag : Bool)
    {tokens : List Token} (plain : ∀ token ∈ tokens, '«' ∉ token.text)
    (image : ∀ w : Text, '«' ∉ w →
      Becomes (placeholder parameter) replacement ((σ w).getD w) ((τ w).getD w)) :
    Becomes (placeholder parameter) replacement (Token.render (Token.substitute σ flag tokens))
      (Token.render (Token.substitute τ flag tokens)) := by
  induction tokens generalizing flag with
  | nil => exact becomes_of_not_mem (by simp [Token.substitute, Token.render])
  | cons token tokens ih =>
    have first := plain token (List.mem_cons_self ..)
    have later := fun flag => ih flag fun t member => plain t (List.mem_cons_of_mem _ member)
    cases token with
    | mark c =>
      rw [Token.substitute, Token.substitute, Token.render_cons, Token.render_cons]
      exact (becomes_of_not_mem first).append (later _)
    | word w =>
      rw [Token.substitute, Token.substitute]
      split
      · rw [Token.render_cons, Token.render_cons]
        exact (becomes_of_not_mem first).append (later _)
      · rw [Token.render_cons, Token.render_cons]
        exact (image w first).append (later _)

namespace Template

/-- Some words `done` are replaced already; filling in the placeholders replaces the parameters. -/
theorem fill_render_substitute {parameters arguments : List Text}
    (names : ∀ parameter ∈ parameters, isIdentifier parameter = true)
    (plain : ∀ a ∈ arguments, '«' ∉ a) (arity : arguments.length = parameters.length)
    {done : Text → Option Text} (donePlain : ∀ w v, done w = some v → '«' ∉ v)
    {tokens : List Token} (tokensPlain : ∀ token ∈ tokens, '«' ∉ token.text) :
    fill (parameters.map placeholder) arguments
        (Token.render (Token.substitute
          (fun w => (done w).or (if w ∈ parameters then some (placeholder w) else none)) false
          tokens)) =
      Token.render (Token.substitute
        (fun w => (done w).or ((parameters.zip arguments).lookup w)) false tokens) := by
  induction parameters generalizing arguments done with
  | nil => simp [fill]
  | cons parameter parameters ih =>
    cases arguments with
    | nil => cases arity
    | cons a arguments =>
      have name := names parameter (List.mem_cons_self ..)
      have first : '«' ∉ a := plain a (List.mem_cons_self ..)
      -- one round of replacing turns the first parameter into a word that is done
      have step : Text.replace (placeholder parameter) a (Token.render (Token.substitute
          (fun w => (done w).or
            (if w ∈ parameter :: parameters then some (placeholder w) else none)) false tokens)) =
          Token.render (Token.substitute
            (fun w => ((done w).or (if w = parameter then some a else none)).or
              (if w ∈ parameters then some (placeholder w) else none)) false tokens) := by
        refine (becomes_render_substitute false tokensPlain fun w unopened => ?_).replace_eq
        cases known : done w with
        | some v => exact becomes_of_not_mem (donePlain w v known)
        | none =>
          by_cases same : w = parameter
          · simpa [same] using becomes_placeholder parameter
          · by_cases member : w ∈ parameters
            · have other := names w (List.mem_cons_of_mem _ member)
              simpa [same, member] using becomes_other_placeholder (Ne.symm same)
                (not_mem_of_isIdentifier name (by decide))
                (not_mem_of_isIdentifier other (by decide)) unopened
            · simpa [same, member] using becomes_of_not_mem unopened
      have donePlain' : ∀ w v, (done w).or (if w = parameter then some a else none) = some v →
          '«' ∉ v := by
        intro w v replaced
        rcases Option.or_eq_some_iff.1 replaced with known | ⟨-, own⟩
        · exact donePlain w v known
        · split at own
          · rwa [← Option.some.inj own]
          · cases own
      have rest := ih (fun p member => names p (List.mem_cons_of_mem _ member))
        (fun b member => plain b (List.mem_cons_of_mem _ member)) (Nat.succ.inj arity) donePlain'
      rw [← step] at rest
      show fill (parameters.map placeholder) arguments _ = _
      rw [rest]
      congr 2
      funext w
      rw [Option.or_assoc]
      congr 1
      rw [List.zip_cons_cons, List.lookup_cons]
      by_cases same : w = parameter
      · simp [same]
      · simp [same, beq_false_of_ne same]

/-- Marking the parameters and filling in the arguments replaces the parameters by the arguments. -/
theorem fill_markParameters {parameters arguments : List Text} {text : Text}
    (names : ∀ parameter ∈ parameters, isIdentifier parameter = true)
    (plain : ∀ a ∈ arguments, '«' ∉ a) (arity : arguments.length = parameters.length)
    (textPlain : '«' ∉ text) :
    fill (parameters.map placeholder) arguments (markParameters parameters text) =
      substituteWords (fun w => (parameters.zip arguments).lookup w) text := by
  have tokensPlain : ∀ token ∈ Token.scan text, '«' ∉ token.text := by
    intro token listed member
    rcases Token.mem_text_of_mem_scan listed member with inside | blank
    · exact textPlain inside
    · revert blank
      decide
  have nothingDone : ∀ w v : Text, (fun _ => none : Text → Option Text) w = some v → '«' ∉ v := by
    intro w v found
    cases found
  exact fill_render_substitute names plain arity nothingDone tokensPlain

end Template

end ApiSchema
