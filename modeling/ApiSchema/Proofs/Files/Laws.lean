import ApiSchema.Dict
import ApiSchema.Files.FileSystem
import ApiSchema.Proofs.Outcome

/-!
# What is written is read back

`FileSystem.Lawful` is what the documentation of files promises and programs rely on: reading
changes nothing, and a file that was written has the text that was written. A tree of files is
lawful (`FileTree.fileSystem_lawful`). The point is that writing leads to the place where reading
looks: a path is followed through folders, and a file that is put where there is no folder leaves
all folders standing, with no fewer names in them (`FileTree.walk_putAt`).
-/

namespace ApiSchema

/-- Reading changes nothing, and a file that was written has the text that was written. -/
structure FileSystem.Lawful {σ : Type} (files : FileSystem (StateM σ)) : Prop where
  read_keeps : ∀ path s, ((files.read path).run s).2 = s
  read_of_write : ∀ path text s t, (files.write path text).run s = (.ok (), t) →
    ((files.read path).run t).1 = .ok text

/-- What was saved is read back: the folders above the file are made before it is written. -/
theorem FileSystem.Lawful.read_of_save {σ : Type} {files : FileSystem (StateM σ)}
    (lawful : files.Lawful) {path text : Text} {s t : σ}
    (saved : (files.save path text).run s = (.ok (), t)) :
    ((files.read path).run t).1 = .ok text := by
  rw [save, StateT.run_bind] at saved
  cases folders : (files.ensureFolders (Path.foldersAbove path)).run s with
  | mk outcome middle =>
    rw [folders] at saved
    cases outcome with
    | error fault => cases saved
    | ok none => exact lawful.read_of_write path text middle t saved

/-! ## The parts of a path -/

namespace Path

theorem parts_cons {c : Char} {rest part : Text} {others : List Text}
    (split : parts rest = part :: others) :
    parts (c :: rest) = if c = '/' then [] :: part :: others else (c :: part) :: others := by
  rw [parts, split]

/-- The last part is empty only behind a slash. -/
theorem eq_nil_or_slash_of_parts {path : Text} (last : (parts path).getLast? = some []) :
    path = [] ∨ path.getLast? = some '/' := by
  induction path with
  | nil => exact Or.inl rfl
  | cons c rest ih =>
    right
    obtain ⟨part, others, split⟩ := List.exists_cons_of_ne_nil (parts_ne_nil rest)
    rw [parts_cons split] at last
    by_cases ended : rest = []
    · obtain ⟨rfl, rfl⟩ : part = [] ∧ others = [] := by
        rw [ended] at split
        exact ⟨(List.cons.inj split).1.symm, (List.cons.inj split).2.symm⟩
      by_cases slash : c = '/'
      · rw [ended, slash, List.getLast?_singleton]
      · rw [if_neg slash] at last
        cases last
    · -- the last part is that of the rest, which does not end before its own slash
      have inner : (parts rest).getLast? = some [] := by
        rw [split]
        by_cases slash : c = '/'
        · rwa [if_pos slash, List.getLast?_cons_cons] at last
        · rw [if_neg slash] at last
          cases others with
          | nil => cases last
          | cons other others => rwa [List.getLast?_cons_cons] at last ⊢
      obtain empty | slash := ih inner
      · exact absurd empty ended
      · obtain ⟨first, later, rfl⟩ := List.exists_cons_of_ne_nil ended
        rwa [List.getLast?_cons_cons]

/-- A path that does not end in a slash is what is above it and its last part. -/
theorem parts_of_splitLast? {path last : Text} {above : List Text}
    (split : splitLast? path = some (above, last)) (nonempty : path ≠ [])
    (unended : path.getLast? ≠ some '/') : parts path = above ++ [last] ∧ last ≠ [] := by
  obtain empty | ⟨front, part, whole⟩ := List.eq_nil_or_concat (parts path)
  · exact absurd empty (parts_ne_nil path)
  · rw [List.concat_eq_append] at whole
    have inked : part ≠ [] := by
      intro empty
      have last : (parts path).getLast? = some [] := by
        rw [whole, List.getLast?_concat, empty]
      exact (eq_nil_or_slash_of_parts last).elim nonempty unended
    have kept : (part :: front.reverse).dropWhile List.isEmpty = part :: front.reverse := by
      rw [List.dropWhile_cons, if_neg (by simpa using inked)]
    rw [splitLast?, whole, List.reverse_concat, kept] at split
    obtain ⟨rfl, rfl⟩ := Prod.mk.inj (Option.some.inj split)
    rw [List.reverse_reverse]
    exact ⟨whole, inked⟩

end Path

/-! ## Nodes in a tree -/

namespace Node

theorem lookup_replaced (entries : List (Text × Node)) (name other : Text) (node : Node) :
    ((entries.filter fun entry => entry.1 != name) ++ [(name, node)]).lookup other =
      if other = name then some node else entries.lookup other := by
  induction entries with
  | nil => rw [List.filter_nil, List.nil_append, lookup_cons_eq, List.lookup_nil]
  | cons entry entries ih =>
    obtain ⟨first, child⟩ := entry
    by_cases same : first = name
    · rw [List.filter_cons_of_neg (by simpa using same), ih, lookup_cons_eq, same]
      split <;> rfl
    · rw [List.filter_cons_of_pos (by simpa using same), List.cons_append, lookup_cons_eq, ih,
        lookup_cons_eq]
      grind

theorem get?_append (root : Node) (names more : List Text) :
    root.get? (names ++ more) = (root.get? names).bind (·.get? more) := by
  induction names generalizing root with
  | nil => rfl
  | cons name names ih =>
    rw [List.cons_append, get?, get?]
    cases root.entries.lookup name with
    | none => rfl
    | some child => exact ih child

theorem get?_put (root : Node) (names : List Text) (node : Node) :
    (root.put names node).get? names = some node := by
  induction names generalizing root with
  | nil => rw [put, get?]
  | cons name names ih =>
    rw [put, get?, entries, lookup_replaced, if_pos rfl]
    exact ih _

/-- A folder stays a folder, and what was in it stays in it, when a node is put where there is no
folder. -/
theorem exists_folder_put {root : Node} {place names : List Text} {inside : List (Text × Node)}
    (here : root.get? place = some (folder inside))
    (apart : ∀ entries, root.get? names ≠ some (folder entries)) (node : Node) :
    ∃ entries, (root.put names node).get? place = some (folder entries) ∧
      ∀ name, (inside.lookup name).isSome = true → (entries.lookup name).isSome = true := by
  induction names generalizing root place with
  | nil =>
    cases place with
    | nil => exact absurd here (apart inside)
    | cons next place =>
      rw [get?] at here
      cases root with
      | file text => cases here
      | folder children => exact absurd rfl (apart children)
  | cons name names ih =>
    cases place with
    | nil =>
      obtain rfl : root = folder inside := Option.some.inj here
      refine ⟨_, rfl, fun other known => ?_⟩
      rw [lookup_replaced]
      split
      · rfl
      · exact known
    | cons next place =>
      rw [put, get?, entries, lookup_replaced]
      rw [get?] at here apart
      by_cases same : next = name
      · subst same
        rw [if_pos rfl]
        cases found : root.entries.lookup next with
        | none =>
          rw [found] at here
          cases here
        | some child =>
          rw [found] at here apart
          exact ih here apart
      · rw [if_neg same]
        exact ⟨inside, here, fun _ known => known⟩

end Node

/-! ## Paths in a tree -/

namespace FileTree

theorem entriesAt_eq_ok_iff {tree : FileTree} {place : Place} {entries : List (Text × Node)} :
    tree.entriesAt place = .ok entries ↔ tree.at? place = some (.folder entries) := by
  unfold entriesAt
  split <;> simp_all

theorem at?_cons (tree : FileTree) (name : Text) (place : Place) :
    tree.at? (name :: place) = (tree.at? place).bind fun node => node.entries.lookup name := by
  rw [at?, List.reverse_cons, Node.get?_append, at?]
  cases tree.root.get? place.reverse with
  | none => rfl
  | some node =>
    show node.get? [name] = node.entries.lookup name
    rw [Node.get?]
    cases node.entries.lookup name <;> rfl

/-- In a folder is what its name leads to. -/
theorem lookup_of_entriesAt {tree : FileTree} {place : Place} {entries : List (Text × Node)}
    (inside : tree.entriesAt place = .ok entries) (name : Text) :
    entries.lookup name = tree.at? (name :: place) := by
  rw [at?_cons, entriesAt_eq_ok_iff.1 inside]
  rfl

theorem walk_append (tree : FileTree) (place : Place) (parts more : List Text) :
    tree.walk place (parts ++ more) = tree.walk place parts >>= fun reached =>
      tree.walk reached more := by
  induction parts generalizing place with
  | nil => rfl
  | cons part parts ih =>
    rw [List.cons_append, walk, walk]
    cases tree.entriesAt place with
    | error fault => rfl
    | ok entries =>
      -- one case for each way in which a part is followed, or is not
      show (if _ then _ else _) = (if _ then _ else _) >>= _
      split_ifs
      · exact ih place
      · exact ih place.tail
      · rfl
      · rfl
      · exact ih (part :: place)

/-- A part that names something in a folder leads to it. -/
theorem walk_name {tree : FileTree} {place : Place} {part : Text} {entries : List (Text × Node)}
    (inside : tree.entriesAt place = .ok entries) (nonempty : part ≠ [])
    (plain : Path.isSpecial part = false) (short : ¬ Path.nameLimit < Text.byteCount part)
    (known : (entries.lookup part).isSome = true) :
    tree.walk place [part] = .ok (part :: place) := by
  rw [Path.isSpecial, Bool.or_eq_false_iff, beq_eq_false_iff_ne, beq_eq_false_iff_ne] at plain
  rw [walk, inside]
  show (if _ then _ else _) = _
  rw [if_neg (by simp [nonempty, plain.1]), if_neg (by simp [plain.2]), if_neg short,
    if_neg (by simpa [← Option.isSome_iff_ne_none] using known)]
  rfl

theorem find_of_walk {tree : FileTree} {path : Text} {place : Place} {node : Node}
    (checked : checkPath path = .ok ())
    (reached : tree.walk (tree.start path) (Path.parts path) = .ok place)
    (there : tree.at? place = some node) : tree.find path = .ok node := by
  refine bind_eq_ok_iff.2 ⟨(), checked, bind_eq_ok_iff.2 ⟨place, reached, ?_⟩⟩
  rw [there]
  rfl

/-- A path that leads somewhere leads there also after a node was put where there was no folder. -/
theorem walk_putAt {tree : FileTree} {place reached target : Place} {parts : List Text}
    (followed : tree.walk place parts = .ok reached)
    (apart : ∀ entries, tree.at? target ≠ some (.folder entries)) (node : Node) :
    (tree.putAt node target).walk place parts = .ok reached := by
  induction parts generalizing place with
  | nil => exact followed
  | cons part parts ih =>
    rw [walk, bind_eq_ok_iff] at followed
    obtain ⟨inside, here, followed⟩ := followed
    obtain ⟨entries, there, kept⟩ :=
      Node.exists_folder_put (entriesAt_eq_ok_iff.1 here) apart node
    have still : (tree.putAt node target).entriesAt place = .ok entries :=
      entriesAt_eq_ok_iff.2 there
    rw [walk, still]
    show (if _ then _ else _) = _
    split_ifs at followed with stays up long missing
    · rw [if_pos stays]
      exact ih followed
    · rw [if_neg stays, if_pos up]
      exact ih followed
    · have known := kept part (by simpa [Option.isSome_iff_ne_none] using missing)
      rw [if_neg stays, if_neg up, if_neg long, if_neg (by simpa using known)]
      exact ih followed

/-- Where a text is put by writing it: under the last part of the path, in the folder that the parts
above it lead to, and not in the place of a folder. -/
theorem write_eq_ok {tree changed : FileTree} {path text : Text}
    (written : tree.write path text = .ok changed) :
    checkPath path = .ok () ∧ ∃ above last place entries,
      Path.parts path = above ++ [last] ∧ last ≠ [] ∧
      tree.walk (tree.start path) above = .ok place ∧ tree.entriesAt place = .ok entries ∧
      Path.isSpecial last = false ∧ ¬ Path.nameLimit < Text.byteCount last ∧
      (∀ children, entries.lookup last ≠ some (.folder children)) ∧
      changed = tree.putAt (.file text) (last :: place) := by
  rw [write, bind_eq_ok_iff] at written
  obtain ⟨⟨⟩, checked, written⟩ := written
  have nonempty : path ≠ [] := by
    intro empty
    rw [empty] at checked
    cases checked
  refine ⟨checked, ?_⟩
  cases split : Path.splitLast? path with
  | none =>
    rw [split] at written
    cases written
  | some pair =>
    obtain ⟨above, last⟩ := pair
    simp only [split, bind_eq_ok_iff] at written
    obtain ⟨place, followed, entries, inside, written⟩ := written
    split_ifs at written with kind long
    obtain ⟨plain, unended⟩ := by simpa only [Bool.or_eq_true, not_or] using kind
    obtain ⟨whole, named⟩ := Path.parts_of_splitLast? split nonempty (by simpa using unended)
    have apart : ∀ children, entries.lookup last ≠ some (.folder children) := by
      intro children present
      rw [present] at written
      cases written
    refine ⟨above, last, place, entries, whole, named, followed, inside, by simpa using plain,
      long, apart, ?_⟩
    split at written
    · cases written
    · exact (Except.ok.inj written).symm

/-- A text that was written is read at the same path. -/
theorem read_write {tree changed : FileTree} {path text : Text}
    (written : tree.write path text = .ok changed) : changed.read path = .ok text := by
  obtain ⟨checked, above, last, place, entries, whole, named, followed, inside, plain, short,
    apart, rfl⟩ := write_eq_ok written
  have noFolder : ∀ children, tree.at? (last :: place) ≠ some (.folder children) := by
    intro children
    rw [← lookup_of_entriesAt inside]
    exact apart children
  have there : (tree.putAt (.file text) (last :: place)).at? (last :: place)
      = some (.file text) := Node.get?_put ..
  have again := walk_putAt followed noFolder (.file text)
  obtain ⟨now, folder, -⟩ :=
    Node.exists_folder_put (entriesAt_eq_ok_iff.1 inside) noFolder (.file text)
  have inside' : (tree.putAt (.file text) (last :: place)).entriesAt place = .ok now :=
    entriesAt_eq_ok_iff.2 folder
  have known : (now.lookup last).isSome = true := by
    rw [lookup_of_entriesAt inside', there]
    rfl
  have reached : (tree.putAt (.file text) (last :: place)).walk (tree.start path)
      (Path.parts path) = .ok (last :: place) := by
    rw [whole, walk_append, again]
    exact walk_name inside' named plain short known
  rw [read, find_of_walk checked reached there]
  rfl

/-- A change that is made leaves the tree that it gives. -/
theorem run_update_eq_ok {change : FileTree → Except FileFault FileTree} {tree changed : FileTree}
    (made : (update change).run tree = (.ok (), changed)) : change tree = .ok changed := by
  rw [update, StateT.run_bind, StateT.run_get, pure_bind] at made
  cases outcome : change tree with
  | error fault =>
    simp only [outcome] at made
    cases made
  | ok result =>
    simp only [outcome] at made
    cases made
    rfl

/-- Trees of files keep what was written, and reading leaves them as they are. -/
theorem fileSystem_lawful : fileSystem.Lawful where
  read_keeps _ _ := rfl
  read_of_write _ _ _ _ written := read_write (run_update_eq_ok written)

end FileTree

end ApiSchema
