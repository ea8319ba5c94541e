import ApiSchema.CommandLine.Run
import ApiSchema.Proofs.Expansion.Depth
import ApiSchema.Proofs.Files.Laws
import ApiSchema.Proofs.Outcome

/-!
# Documents are expanded all or not at all

`expand` reads all documents, then expands them all, and only then puts anything out. Up to there it
is an action that leaves the files as they are: `Gives` says what loading comes to in a state, and
`expandedIn` what the inputs come to (`run_expandInputs`).

What one document gives is a matter of the text in its own file. It expands to definitions
(`ExpandsTo`), it fails to load or to expand (`Fails`), or it loads and runs into the bound on the
recursion. All inputs are expanded just when each document expands by itself, and then with the
definitions that it expands to (`expandedIn_eq_ok_iff`). They are left without an outcome just when
all documents load and one of them runs into the bound (`expandedIn_eq_none_iff`). What remains are
the runs that a fault ends before there is anything to put out (`expand_all_or_nothing`).

The bound is no part of a report. A larger one may bring a report about, but never changes one
(`run_of_le`).
-/

namespace ApiSchema

namespace Command

variable {σ α β : Type} {s t : σ}

/-! ## Actions that change nothing -/

/-- In this state the action has this outcome, and leaves the state as it is. -/
def Gives (s : σ) (action : ExceptT Text (StateM σ) α) (outcome : Except Text α) : Prop :=
  action.run.run s = (outcome, s)

theorem Gives.pure (a : α) : Gives s (Pure.pure a) (.ok a) :=
  rfl

theorem Gives.bind {x : ExceptT Text (StateM σ) α} {f : α → ExceptT Text (StateM σ) β}
    {outcome : Except Text α} {g : α → Except Text β} (first : Gives s x outcome)
    (later : ∀ a, Gives s (f a) (g a)) : Gives s (x >>= f) (outcome >>= g) := by
  rw [Gives, ExceptT.run_bind, StateT.run_bind, first]
  cases outcome with
  | error message => rfl
  | ok a => exact later a

theorem Gives.ok_bind {x : ExceptT Text (StateM σ) α} {f : α → ExceptT Text (StateM σ) β} {a : α}
    {outcome : Except Text β} (first : Gives s x (.ok a)) (later : Gives s (f a) outcome) :
    Gives s (x >>= f) outcome := by
  rw [Gives, ExceptT.run_bind, StateT.run_bind, first]
  exact later

theorem Gives.mapM {f : α → ExceptT Text (StateM σ) β} {g : α → Except Text β} {l : List α}
    (each : ∀ a ∈ l, Gives s (f a) (g a)) : Gives s (l.mapM f) (l.mapM g) := by
  induction l with
  | nil => exact .pure []
  | cons a l ih =>
    obtain ⟨first, later⟩ := List.forall_mem_cons.1 each
    rw [List.mapM_cons, List.mapM_cons]
    exact first.bind fun b => (ih later).bind fun bs => .pure (b :: bs)

/-! ## Loading -/

variable {files : FileSystem (StateM σ)}

/-- The file at a path is read, and its text is a document. -/
def Loads (files : FileSystem (StateM σ)) (s : σ) (path : Text) (document : Document) : Prop :=
  ∃ text, ((files.read path).run s).1 = .ok text ∧ Document.codec.decode text = .ok document

theorem Loads.unique {path : Text} {document other : Document}
    (loads : Loads files s path document) (loads' : Loads files s path other) :
    document = other := by
  obtain ⟨text, read, decoded⟩ := loads
  obtain ⟨text', read', decoded'⟩ := loads'
  obtain rfl := Except.ok.inj (read.symm.trans read')
  exact Except.ok.inj (decoded.symm.trans decoded')

/-- The document in a file, in one state of the files, or why there is none. -/
def documentIn (files : FileSystem (StateM σ)) (s : σ) (path : Text) : Except Text Document :=
  ((loadDocument files path).run.run s).1

/-- An action that cannot fail is made first. -/
theorem run_lift_bind (action : StateM σ α) (next : α → ExceptT Text (StateM σ) β) (s : σ) :
    (liftM action >>= next).run.run s =
      (next (action.run s).1).run.run (action.run s).2 :=
  rfl

theorem run_loadDocument_of_fault {path : Text} {fault : FileFault}
    (unread : (files.read path).run s = (.error fault, t)) :
    (loadDocument files path).run.run s =
      (.error ("failed to read ".toList ++ path ++ ": ".toList ++ fault.message), t) := by
  unfold loadDocument
  rw [run_lift_bind, unread]
  rfl

theorem run_loadDocument_of_text {path text : Text}
    (read : (files.read path).run s = (.ok text, t)) :
    (loadDocument files path).run.run s =
      ((Document.codec.decode text).mapError fun failure =>
        "failed to parse ".toList ++ path ++ ": ".toList ++ failure.message, t) := by
  unfold loadDocument
  rw [run_lift_bind, read]
  cases decoded : Document.codec.decode text with
  | error failure =>
    simp only [decoded]
    rfl
  | ok document =>
    simp only [decoded]
    rfl

theorem gives_loadDocument (lawful : files.Lawful) (s : σ) (path : Text) :
    Gives s (loadDocument files path) (documentIn files s path) := by
  have kept : ((files.read path).run s).2 = s := lawful.read_keeps path s
  unfold Gives documentIn
  cases read : (files.read path).run s with
  | mk outcome t =>
    obtain rfl : t = s := by rwa [read] at kept
    cases outcome with
    | error fault => rw [run_loadDocument_of_fault read]
    | ok text => rw [run_loadDocument_of_text read]

theorem documentIn_eq_ok_iff {path : Text} {document : Document} :
    documentIn files s path = .ok document ↔ Loads files s path document := by
  unfold Loads
  cases read : (files.read path).run s with
  | mk outcome t =>
    cases outcome with
    | error fault =>
      rw [documentIn, run_loadDocument_of_fault read]
      simp
    | ok text =>
      rw [documentIn, run_loadDocument_of_text read]
      simp [mapError_eq_ok_iff]

theorem gives_resolveInput {input : Text} (literal : isPattern input = false) :
    Gives s (resolveInput files input) (.ok [input]) := by
  unfold resolveInput
  rw [if_neg (by simp [literal])]
  exact .pure [input]

/-- Paths that are no patterns stand for themselves. -/
theorem gives_resolveInputs {inputs : List Text}
    (literal : ∀ input ∈ inputs, isPattern input = false) :
    Gives s (inputs.mapM (resolveInput files)) (.ok (inputs.map ([·]))) := by
  have each : Gives s (inputs.mapM (resolveInput files))
      (inputs.mapM fun input => Pure.pure [input]) :=
    Gives.mapM fun input member => gives_resolveInput (literal input member)
  rwa [List.mapM_pure] at each

/-- The documents of the inputs in one state of the files, with their paths. -/
def loadedIn (files : FileSystem (StateM σ)) (s : σ) (inputs : List Text) :
    Except Text (List (Text × Document)) :=
  inputs.mapM fun path => (documentIn files s path).map (path, ·)

theorem gives_loadInputs (lawful : files.Lawful) {inputs : List Text}
    (literal : ∀ input ∈ inputs, isPattern input = false) (s : σ) :
    Gives s (loadInputs files inputs) (loadedIn files s inputs) := by
  have loaded : ∀ path, Gives s (do return (path, ← loadDocument files path))
      ((documentIn files s path).map (path, ·)) := by
    intro path
    have both := (gives_loadDocument lawful s path).bind fun d => Gives.pure (path, d)
    cases found : documentIn files s path <;> rwa [found] at both
  unfold loadInputs
  refine (gives_resolveInputs literal).ok_bind ?_
  rw [← List.flatMap_def, List.flatMap_singleton']
  exact Gives.mapM fun path _ => loaded path

theorem loadedIn_eq_ok_iff {inputs : List Text} {documents : List (Text × Document)} :
    loadedIn files s inputs = .ok documents ↔
      List.Forall₂ (fun input entry => Loads files s input entry.2 ∧ input = entry.1)
        inputs documents := by
  have single : ∀ input entry, (documentIn files s input).map (input, ·) = .ok entry ↔
      Loads files s input entry.2 ∧ input = entry.1 := by
    intro input entry
    rw [map_eq_ok_iff]
    constructor
    · rintro ⟨document, found, rfl⟩
      exact ⟨documentIn_eq_ok_iff.1 found, rfl⟩
    · intro ⟨loads, same⟩
      exact ⟨entry.2, documentIn_eq_ok_iff.2 loads, Prod.ext same rfl⟩
  rw [loadedIn, mapM_eq_ok_iff]
  simp only [single]

theorem exists_not_loads_of_loadedIn_eq_error {inputs : List Text} {message : Text}
    (unloaded : loadedIn files s inputs = .error message) :
    ∃ input ∈ inputs, ∀ document, ¬ Loads files s input document := by
  obtain ⟨input, member, failed⟩ := exists_error_of_mapM unloaded
  refine ⟨input, member, fun document loads => ?_⟩
  rw [documentIn_eq_ok_iff.2 loads] at failed
  cases failed

/-! ## Expanding -/

section

variable {depth more : Nat} {path : Text} {document : Document} {documents : List (Text × Document)}

theorem expandDocument_eq_none_iff :
    expandDocument depth path document = none ↔ document.expand depth = .error .tooDeep := by
  cases came : document.expand depth with
  | ok definitions => simp [expandDocument, came]
  | error stop => cases stop <;> simp [expandDocument, came]

theorem expandDocument_eq_ok_iff {entry : Text × List ConcreteDefinition} :
    expandDocument depth path document = some (.ok entry) ↔
      document.expand depth = .ok entry.2 ∧ path = entry.1 := by
  cases came : document.expand depth with
  | ok definitions => simp [expandDocument, came, Prod.ext_iff, and_comm]
  | error stop => cases stop <;> simp [expandDocument, came]

theorem expandDocument_of_le {outcome : Except Text (Text × List ConcreteDefinition)}
    (le : depth ≤ more) (ended : expandDocument depth path document = some outcome) :
    expandDocument more path document = some outcome := by
  have finished : document.expand depth ≠ .error .tooDeep := by
    rw [ne_eq, ← expandDocument_eq_none_iff, ended]
    simp
  rwa [expandDocument, Document.expand_of_le le finished]

theorem expandDocuments_eq_none_iff :
    expandDocuments depth documents = none ↔
      ∃ entry ∈ documents, entry.2.expand depth = .error .tooDeep := by
  have collected : expandDocuments depth documents = none ↔
      (documents.mapM fun entry => expandDocument depth entry.1 entry.2) = none := by
    rw [expandDocuments]
    cases documents.mapM fun entry => expandDocument depth entry.1 entry.2 <;> simp
  rw [collected, mapM_eq_none_iff]
  simp only [expandDocument_eq_none_iff]

theorem expandDocuments_eq_some_iff {outcome : Except Text (List (Text × List ConcreteDefinition))} :
    expandDocuments depth documents = some outcome ↔
      ∃ outcomes, List.Forall₂ (fun entry own => expandDocument depth entry.1 entry.2 = some own)
        documents outcomes ∧ outcomes.mapM id = outcome := by
  simp only [← mapM_eq_some_iff]
  rw [expandDocuments]
  cases documents.mapM fun entry => expandDocument depth entry.1 entry.2 <;> simp

theorem expandDocuments_eq_ok_iff {expanded : List (Text × List ConcreteDefinition)} :
    expandDocuments depth documents = some (.ok expanded) ↔
      List.Forall₂ (fun entry own => entry.2.expand depth = .ok own.2 ∧ entry.1 = own.1)
        documents expanded := by
  rw [expandDocuments_eq_some_iff]
  simp only [mapM_eq_ok_iff, id_eq]
  rw [exists_forall₂_iff]
  simp only [exists_eq_right, expandDocument_eq_ok_iff]

theorem expandDocuments_of_le {outcome : Except Text (List (Text × List ConcreteDefinition))}
    (le : depth ≤ more) (ended : expandDocuments depth documents = some outcome) :
    expandDocuments more documents = some outcome := by
  rw [expandDocuments_eq_some_iff] at ended ⊢
  obtain ⟨outcomes, each, same⟩ := ended
  exact ⟨outcomes, each.imp fun entry own => expandDocument_of_le le, same⟩

end

/-! ## All inputs -/

/-- The file at a path is read, its text is a document, and the document expands to definitions. -/
def ExpandsTo (files : FileSystem (StateM σ)) (depth : Nat) (s : σ) (path : Text)
    (definitions : List ConcreteDefinition) : Prop :=
  ∃ document, Loads files s path document ∧ document.expand depth = .ok definitions

/-- The file at a path does not load, or its document fails to expand with an error of its own. -/
def Fails (files : FileSystem (StateM σ)) (depth : Nat) (s : σ) (path : Text) : Prop :=
  (∀ document, ¬ Loads files s path document) ∨
    ∃ document e, Loads files s path document ∧ document.expand depth = .error (.error e)

/-- All inputs load, and the document of one of them runs into the bound. -/
def Exceeds (files : FileSystem (StateM σ)) (depth : Nat) (s : σ) (inputs : List Text) : Prop :=
  (∀ input ∈ inputs, ∃ document, Loads files s input document) ∧
    ∃ input ∈ inputs, ∃ document, Loads files s input document ∧
      document.expand depth = .error .tooDeep

section

variable {depth more : Nat} {inputs : List Text}

theorem Fails.not_expandsTo {path : Text} (fails : Fails files depth s path)
    (definitions : List ConcreteDefinition) : ¬ ExpandsTo files depth s path definitions := by
  intro ⟨document, loads, expanded⟩
  rcases fails with unloaded | ⟨other, e, loads', failed⟩
  · exact unloaded document loads
  · rw [loads'.unique loads, expanded] at failed
    cases failed

theorem ExpandsTo.unique {path : Text} {definitions others : List ConcreteDefinition}
    (expands : ExpandsTo files depth s path definitions)
    (expands' : ExpandsTo files depth s path others) : definitions = others := by
  obtain ⟨document, loads, expanded⟩ := expands
  obtain ⟨other, loads', expanded'⟩ := expands'
  obtain rfl := loads.unique loads'
  exact Except.ok.inj (expanded.symm.trans expanded')

/-- A document whose definitions are known by some view of them expands. -/
theorem exists_expandsTo {γ : Type} {view : List ConcreteDefinition → γ} {path : Text} {shown : γ}
    (came : (documentIn files s path).map (fun d => (d.expand depth).map view) = .ok (.ok shown)) :
    ∃ definitions, ExpandsTo files depth s path definitions ∧ view definitions = shown := by
  obtain ⟨document, found, came⟩ := map_eq_ok_iff.1 came
  obtain ⟨definitions, expanded, seen⟩ := map_eq_ok_iff.1 came
  exact ⟨definitions, ⟨document, documentIn_eq_ok_iff.1 found, expanded⟩, seen⟩

/-- No document runs into the bound if each fails or expands. -/
theorem not_exceeds (ended : ∀ input ∈ inputs, Fails files depth s input ∨
    ∃ definitions, ExpandsTo files depth s input definitions) :
    ¬ Exceeds files depth s inputs := by
  intro ⟨_, input, member, document, loads, deep⟩
  rcases ended input member with (unloaded | ⟨other, e, loads', failed⟩) |
    ⟨definitions, other, loads', expanded⟩
  · exact unloaded document loads
  · rw [loads.unique loads', failed] at deep
    cases deep
  · rw [loads.unique loads', expanded] at deep
    cases deep

/-- What comes of inputs in one state of the files: all are loaded, and then all are expanded. -/
def expandedIn (files : FileSystem (StateM σ)) (depth : Nat) (s : σ) (inputs : List Text) :
    Option (Except Text (List (Text × List ConcreteDefinition))) :=
  match loadedIn files s inputs with
  | .error message => some (.error message)
  | .ok documents => expandDocuments depth documents

theorem run_expandInputs_of_fault {message : Text}
    (unloaded : (loadInputs files inputs).run.run s = (.error message, t)) :
    (expandInputs files depth inputs).run s = (some (.error message), t) := by
  rw [expandInputs, StateT.run_bind, unloaded]
  rfl

theorem run_expandInputs_of_documents {documents : List (Text × Document)}
    (loaded : (loadInputs files inputs).run.run s = (.ok documents, t)) :
    (expandInputs files depth inputs).run s = (expandDocuments depth documents, t) := by
  rw [expandInputs, StateT.run_bind, loaded]
  rfl

theorem run_expandInputs (lawful : files.Lawful)
    (literal : ∀ input ∈ inputs, isPattern input = false) (depth : Nat) (s : σ) :
    (expandInputs files depth inputs).run s = (expandedIn files depth s inputs, s) := by
  have gives := gives_loadInputs lawful literal s
  cases loaded : loadedIn files s inputs with
  | error message =>
    rw [loaded] at gives
    simp only [expandedIn, loaded, run_expandInputs_of_fault gives]
  | ok documents =>
    rw [loaded] at gives
    simp only [expandedIn, loaded, run_expandInputs_of_documents gives]

/-- There is no outcome just when all documents load and one of them runs into the bound. -/
theorem expandedIn_eq_none_iff :
    expandedIn files depth s inputs = none ↔ Exceeds files depth s inputs := by
  cases loaded : loadedIn files s inputs with
  | error message =>
    obtain ⟨input, member, unloaded⟩ := exists_not_loads_of_loadedIn_eq_error loaded
    simp only [expandedIn, loaded]
    constructor
    · intro ended
      cases ended
    · intro exceeds
      obtain ⟨document, loads⟩ := exceeds.1 input member
      exact absurd loads (unloaded document)
  | ok documents =>
    have each := loadedIn_eq_ok_iff.1 loaded
    have all : ∀ input ∈ inputs, ∃ document, Loads files s input document :=
      forall_mem_of_forall₂ (each.flip.imp fun entry _ found => ⟨entry.2, found.1⟩)
    have deep : List.Forall₂ (fun input (entry : Text × Document) =>
        (∃ document, Loads files s input document ∧ document.expand depth = .error .tooDeep) ↔
          entry.2.expand depth = .error .tooDeep) inputs documents := by
      refine each.imp fun input entry found => ⟨?_, fun exceeded => ⟨entry.2, found.1, exceeded⟩⟩
      intro ⟨document, loads, exceeded⟩
      rwa [found.1.unique loads]
    simp only [expandedIn, loaded]
    rw [expandDocuments_eq_none_iff, ← exists_mem_iff_of_forall₂ deep]
    exact ⟨fun exceeded => ⟨all, exceeded⟩, fun exceeds => exceeds.2⟩

/-- All inputs are expanded just when each document expands, whatever the others do. -/
theorem expandedIn_eq_ok_iff {expanded : List (Text × List ConcreteDefinition)} :
    expandedIn files depth s inputs = some (.ok expanded) ↔
      List.Forall₂ (fun input own => ExpandsTo files depth s input own.2 ∧ input = own.1)
        inputs expanded := by
  have passes : expandedIn files depth s inputs = some (.ok expanded) ↔
      ∃ documents, loadedIn files s inputs = .ok documents ∧
        expandDocuments depth documents = some (.ok expanded) := by
    unfold expandedIn
    cases loadedIn files s inputs <;> simp
  have single : ∀ input (own : Text × List ConcreteDefinition), (∃ entry : Text × Document,
      (Loads files s input entry.2 ∧ input = entry.1) ∧
        entry.2.expand depth = .ok own.2 ∧ entry.1 = own.1) ↔
      ExpandsTo files depth s input own.2 ∧ input = own.1 := by
    intro input own
    constructor
    · rintro ⟨entry, ⟨loads, rfl⟩, expanded, same⟩
      exact ⟨⟨entry.2, loads, expanded⟩, same⟩
    · intro ⟨⟨document, loads, expanded⟩, same⟩
      exact ⟨(input, document), ⟨loads, rfl⟩, expanded, same⟩
  rw [passes]
  simp only [loadedIn_eq_ok_iff, expandDocuments_eq_ok_iff]
  rw [exists_forall₂_iff]
  simp only [single]

theorem expandedIn_eq_ok {definitions : Text → List ConcreteDefinition}
    (all : ∀ input ∈ inputs, ExpandsTo files depth s input (definitions input)) :
    expandedIn files depth s inputs =
      some (.ok (inputs.map fun input => (input, definitions input))) := by
  rw [expandedIn_eq_ok_iff, List.forall₂_map_right_iff, List.forall₂_same]
  exact fun input member => ⟨all input member, rfl⟩

theorem exists_expandedIn_eq_error {input : Text} (member : input ∈ inputs)
    (fails : Fails files depth s input) (within : ¬ Exceeds files depth s inputs) :
    ∃ message, expandedIn files depth s inputs = some (.error message) := by
  cases outcome : expandedIn files depth s inputs with
  | none => exact absurd (expandedIn_eq_none_iff.1 outcome) within
  | some own =>
    cases own with
    | error message => exact ⟨message, rfl⟩
    | ok expanded =>
      have each := (expandedIn_eq_ok_iff.1 outcome).flip
      have known : ∀ input ∈ inputs, ∃ definitions, ExpandsTo files depth s input definitions :=
        forall_mem_of_forall₂ (each.imp fun entry _ found => ⟨entry.2, found.1⟩)
      obtain ⟨definitions, found⟩ := known input member
      exact absurd found (fails.not_expandsTo definitions)

theorem fullListing_map (inputs : List Text) (definitions : Text → List ConcreteDefinition) :
    fullListing (inputs.map fun input => (input, definitions input)) =
      Text.join ['\n'] (inputs.map fun input =>
        documentListing (1 < inputs.length) input (definitions input)) := by
  rw [fullListing, List.map_map, List.length_map]
  rfl

/-! ## The command -/

variable {colors : Bool}

theorem run_expand {outcome : Option (Except Text (List (Text × List ConcreteDefinition)))}
    (came : (expandInputs files depth inputs).run s = (outcome, t)) (out : Option Text) :
    (run files depth colors (.expand inputs out false)).run s =
      (conclude files colors out outcome).run t := by
  rw [run, if_neg Bool.false_ne_true, runExpand, StateT.run_bind, came]
  rfl

theorem run_putListing_of_saved {expanded : List (Text × List ConcreteDefinition)} {path : Text}
    (saved : (files.save path (fullListing expanded)).run s = (.ok (), t)) :
    ∃ stderr, (putListing files colors (some path) expanded).run s =
      ({ code := 0, stdout := [], stderr }, t) := by
  rw [putListing, StateT.run_bind, saved]
  exact ⟨_, rfl⟩

theorem run_conclude_of_saved {expanded : List (Text × List ConcreteDefinition)} {path : Text}
    (saved : (files.save path (fullListing expanded)).run s = (.ok (), t)) :
    ∃ stderr, (conclude files colors (some path) (some (.ok expanded))).run s =
      (some { code := 0, stdout := [], stderr }, t) := by
  obtain ⟨stderr, put⟩ := run_putListing_of_saved saved
  refine ⟨stderr, ?_⟩
  rw [conclude, StateT.run_bind, put]
  rfl

/-! ## More depth -/

theorem expandInputs_of_le {outcome : Except Text (List (Text × List ConcreteDefinition))}
    (le : depth ≤ more) (ended : (expandInputs files depth inputs).run s = (some outcome, t)) :
    (expandInputs files more inputs).run s = (some outcome, t) := by
  cases loaded : (loadInputs files inputs).run.run s with
  | mk documents u =>
    cases documents with
    | error message =>
      rw [run_expandInputs_of_fault loaded] at ended
      rw [run_expandInputs_of_fault loaded, ended]
    | ok documents =>
      rw [run_expandInputs_of_documents loaded] at ended
      obtain ⟨came, rfl⟩ := Prod.ext_iff.1 ended
      rw [run_expandInputs_of_documents loaded, expandDocuments_of_le le came]

/-- A run that comes to a report comes to the same with any larger bound. -/
theorem run_of_le {command : Command} {report : Report} (le : depth ≤ more)
    (ended : (run files depth colors command).run s = (some report, t)) :
    (run files more colors command).run s = (some report, t) := by
  cases command with
  | check types => exact ended
  | parse type => exact ended
  | expand inputs out noOp =>
    cases noOp with
    | true => exact ended
    | false =>
      cases came : (expandInputs files depth inputs).run s with
      | mk outcome u =>
        cases outcome with
        | none =>
          rw [run_expand came] at ended
          cases ended
        | some outcome =>
          rw [run_expand came] at ended
          rw [run_expand (expandInputs_of_le le came)]
          exact ended

end

/-- Inputs that are no patterns are expanded all or not at all, whatever the bound on the recursion.
If one of the documents fails to load or to expand and none runs into the bound, the run ends with
code 1, with nothing on the output and with all files as they were. If they all expand, there is a
listing, made of what each document expands to by itself, in the order of the inputs. Without an
output file, the listing and a line break are put out and the files stay as they are. With one that
can be saved, it reads as the listing, nothing is put out, and nothing else is done to the files.

If all documents load and one of them runs into the bound, there is no report, whatever comes of the
others, and all files stay as they are. A report that there is stays the same with any larger
bound. -/
theorem expand_all_or_nothing (lawful : files.Lawful) (depth : Nat) (colors : Bool)
    (inputs : List Text) (literal : ∀ input ∈ inputs, isPattern input = false) (s : σ) :
    ((∃ input ∈ inputs, Fails files depth s input) → ¬ Exceeds files depth s inputs →
      ∀ out, ∃ stderr, (run files depth colors (.expand inputs out false)).run s =
        (some { code := 1, stdout := [], stderr }, s)) ∧
    ((∀ input ∈ inputs, ∃ own, ExpandsTo files depth s input own) →
      ∃ (definitions : Text → List ConcreteDefinition) (listing : Text),
        (∀ input ∈ inputs, ExpandsTo files depth s input (definitions input)) ∧
        listing = Text.join ['\n'] (inputs.map fun input =>
          (if 1 < inputs.length then "# ".toList ++ input ++ ['\n'] else []) ++
            (definitions input).flatMap fun d => d.listing ++ ['\n']) ∧
        (run files depth colors (.expand inputs none false)).run s =
          (some { code := 0, stdout := listing ++ ['\n'], stderr := [] }, s) ∧
        ∀ path t, (files.save path listing).run s = (.ok (), t) →
          ((files.read path).run t).1 = .ok listing ∧
          ∃ stderr, (run files depth colors (.expand inputs (some path) false)).run s =
            (some { code := 0, stdout := [], stderr }, t)) ∧
    (Exceeds files depth s inputs →
      ∀ out, (run files depth colors (.expand inputs out false)).run s = (none, s)) ∧
    ∀ out report t more, depth ≤ more →
      (run files depth colors (.expand inputs out false)).run s = (some report, t) →
        (run files more colors (.expand inputs out false)).run s = (some report, t) := by
  have came := run_expandInputs lawful literal depth s
  refine ⟨?_, ?_, ?_, fun out report t more le => run_of_le le⟩
  · intro ⟨input, member, fails⟩ within out
    obtain ⟨message, failed⟩ := exists_expandedIn_eq_error member fails within
    rw [failed] at came
    rw [run_expand came]
    exact ⟨_, rfl⟩
  · intro sound
    have each : ∀ input, ∃ own, input ∈ inputs → ExpandsTo files depth s input own := by
      intro input
      by_cases member : input ∈ inputs
      · obtain ⟨own, expands⟩ := sound input member
        exact ⟨own, fun _ => expands⟩
      · exact ⟨[], fun listed => absurd listed member⟩
    choose definitions all using each
    rw [expandedIn_eq_ok all] at came
    refine ⟨definitions, fullListing (inputs.map fun input => (input, definitions input)), all, ?_,
      run_expand came none, fun path t saved => ⟨?_, ?_⟩⟩
    · rw [fullListing_map]
      simp only [documentListing, decide_eq_true_eq]
    · exact lawful.read_of_save saved
    · rw [run_expand came]
      exact run_conclude_of_saved saved
  · intro exceeds out
    rw [expandedIn_eq_none_iff.2 exceeds] at came
    exact run_expand came out

/-- Books and boxes of them. Then a type lacks a bracket, and at last arguments grow without end. -/
def library : FileTree where
  here := []
  root := .folder [
    ("books.json".toList, .file (Document.codec.print {
      definitions := [{ name := "Book".toList, description := "printed".toList }] })),
    ("boxes.json".toList, .file (Document.codec.print {
      operations := [{ Operation.new "get".toList "/boxes".toList [] with
        responses := [{ code := 200, type := "Box<Book>".toList }] }]
      definitions := [
        { name := "Book".toList },
        { name := "Box".toList
          parameters := ["T".toList]
          properties := [{ name := "content".toList, type := "T[]".toList }] }] })),
    ("shelves.json".toList, .file (Document.codec.print {
      operations := [{ Operation.new "get".toList "/shelves".toList [] with
        responses := [{ code := 200, type := "Shelf<Book".toList }] }] })),
    ("piles.json".toList, .file (Document.codec.print {
      operations := [{ Operation.new "get".toList "/piles".toList [] with
        responses := [{ code := 200, type := "Pile<Book>".toList }] }]
      definitions := [
        { name := "Pile".toList
          parameters := ["T".toList]
          properties := [{ name := "above".toList, type := "Pile<T[]>".toList }] }] }))]

theorem expand_all_or_nothing_library :
    FileTree.fileSystem.Lawful ∧
      (∀ input ∈ ["books.json".toList, "boxes.json".toList, "shelves.json".toList,
        "piles.json".toList, "absent.json".toList], isPattern input = false) ∧
      (∀ input ∈ ["shelves.json".toList, "absent.json".toList],
        Fails FileTree.fileSystem 2 library input ∧
          ¬ Exceeds FileTree.fileSystem 2 library ["books.json".toList, input] ∧
          ∃ stderr, (run FileTree.fileSystem 2 false (.expand ["books.json".toList, input]
            (some "books.json".toList) false)).run library =
              (some { code := 1, stdout := [], stderr }, library)) ∧
      (∀ depth, 2 ≤ depth → (run FileTree.fileSystem depth true
          (.expand ["books.json".toList, "boxes.json".toList] none false)).run library =
        (some {
          code := 0
          stdout := ("# books.json\nBook -- printed\n\n" ++
            "# boxes.json\nBook\nBox<Book>\n  content: Book[]\n\n").toList
          stderr := [] }, library)) ∧
      (∃ t stderr, (run FileTree.fileSystem 2 true (.expand ["books.json".toList]
          (some "lists/all.txt".toList) false)).run library =
            (some { code := 0, stdout := [], stderr }, t) ∧
        ((FileTree.fileSystem.read "lists/all.txt".toList).run t).1 =
          .ok "Book -- printed\n".toList) ∧
      Exceeds FileTree.fileSystem 2 library ["piles.json".toList, "shelves.json".toList] ∧
      (run FileTree.fileSystem 2 false (.expand ["piles.json".toList, "shelves.json".toList]
        (some "books.json".toList) false)).run library = (none, library) := by
  have lawful := FileTree.fileSystem_lawful
  have literal : ∀ input ∈ ["books.json".toList, "boxes.json".toList, "shelves.json".toList,
      "piles.json".toList, "absent.json".toList], isPattern input = false := by decide
  -- what comes of each file by itself
  obtain ⟨books, booksExpand, shown⟩ := exists_expandsTo (by decide +kernel :
    (documentIn FileTree.fileSystem library "books.json".toList).map (fun d =>
      (d.expand 2).map fun own => own.flatMap fun d => d.listing ++ ['\n']) =
        .ok (.ok "Book -- printed\n".toList))
  obtain ⟨boxes, boxesExpand, shown'⟩ := exists_expandsTo (by decide +kernel :
    (documentIn FileTree.fileSystem library "boxes.json".toList).map (fun d =>
      (d.expand 2).map fun own => own.flatMap fun d => d.listing ++ ['\n']) =
        .ok (.ok "Book\nBox<Book>\n  content: Book[]\n".toList))
  obtain ⟨inShelves, ofShelves, failed⟩ := map_eq_ok_iff.1 (by decide +kernel :
    (documentIn FileTree.fileSystem library "shelves.json".toList).map (fun d =>
      (d.expand 2).map fun _ => ()) =
        .ok (.error (.error (.malformed "Shelf<Book".toList .unbalanced))))
  have shelvesFail : Fails FileTree.fileSystem 2 library "shelves.json".toList :=
    Or.inr ⟨inShelves, _, documentIn_eq_ok_iff.1 ofShelves, map_eq_error_iff.1 failed⟩
  obtain ⟨inPiles, ofPiles, endless⟩ := map_eq_ok_iff.1 (by decide +kernel :
    (documentIn FileTree.fileSystem library "piles.json".toList).map (fun d =>
      (d.expand 2).map fun _ => ()) = .ok (.error .tooDeep))
  have unread := map_eq_error_iff.1 (by decide +kernel :
    (documentIn FileTree.fileSystem library "absent.json".toList).map (fun _ => ()) =
      .error "failed to read absent.json: No such file or directory (os error 2)".toList)
  have absentFails : Fails FileTree.fileSystem 2 library "absent.json".toList := by
    refine Or.inl fun document loads => ?_
    cases unread.symm.trans (documentIn_eq_ok_iff.2 loads)
  have exceeds : Exceeds FileTree.fileSystem 2 library
      ["piles.json".toList, "shelves.json".toList] := by
    refine ⟨fun input member => ?_, "piles.json".toList, List.mem_cons_self .., inPiles,
      documentIn_eq_ok_iff.1 ofPiles, map_eq_error_iff.1 endless⟩
    rcases List.mem_pair.1 member with rfl | rfl
    · exact ⟨inPiles, documentIn_eq_ok_iff.1 ofPiles⟩
    · exact ⟨inShelves, documentIn_eq_ok_iff.1 ofShelves⟩
  refine ⟨lawful, literal, fun input member => ?_, fun depth enough => ?_, ?_, exceeds, ?_⟩
  · have fails : Fails FileTree.fileSystem 2 library input := by
      rcases List.mem_pair.1 member with rfl | rfl
      · exact shelvesFail
      · exact absentFails
    have within : ¬ Exceeds FileTree.fileSystem 2 library ["books.json".toList, input] := by
      refine not_exceeds fun path among => ?_
      rcases List.mem_pair.1 among with rfl | rfl
      · exact Or.inr ⟨books, booksExpand⟩
      · exact Or.inl fails
    have plain : ∀ path ∈ ["books.json".toList, input], isPattern path = false := by
      rcases List.mem_pair.1 member with rfl | rfl <;> decide
    exact ⟨fails, within, (expand_all_or_nothing lawful 2 false _ plain library).1
      ⟨input, List.mem_cons_of_mem _ (List.mem_cons_self ..), fails⟩ within _⟩
  · obtain ⟨-, listed, -, stays⟩ := expand_all_or_nothing lawful 2 true
      ["books.json".toList, "boxes.json".toList] (by decide) library
    obtain ⟨definitions, listing, own, rfl, out, -⟩ := listed <| by
      intro input member
      rcases List.mem_pair.1 member with rfl | rfl
      · exact ⟨books, booksExpand⟩
      · exact ⟨boxes, boxesExpand⟩
    have first := (own "books.json".toList (List.mem_cons_self ..)).unique booksExpand
    have second := (own "boxes.json".toList
      (List.mem_cons_of_mem _ (List.mem_cons_self ..))).unique boxesExpand
    rw [List.map_cons, List.map_singleton, first, second, shown, shown'] at out
    exact stays none _ _ depth enough out
  · obtain ⟨-, listed, -⟩ := expand_all_or_nothing lawful 2 true ["books.json".toList]
      (by decide) library
    obtain ⟨definitions, listing, own, rfl, -, saved⟩ :=
      listed (List.forall_mem_singleton.2 ⟨books, booksExpand⟩)
    have only := (own "books.json".toList (List.mem_cons_self ..)).unique booksExpand
    rw [List.map_singleton, only, shown] at saved
    obtain ⟨text, stderr, ended⟩ := saved "lists/all.txt".toList _
      (Prod.ext (by decide +kernel) rfl)
    exact ⟨_, stderr, ended, text⟩
  · exact (expand_all_or_nothing lawful 2 false _ (by decide) library).2.2.1 exceeds _

end Command

end ApiSchema
