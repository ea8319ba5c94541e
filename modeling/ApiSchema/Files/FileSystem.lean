import ApiSchema.Files.Path

/-!
What a program needs of files, and a file system that is held in a value.

`FileSystem` is a record of the operations, in any monad; `FileSystem.save` is built from them and
makes the folders that are missing. `FileTree.fileSystem` keeps the files in a tree of folders, so
that what a program does to files is a function of the tree it is started on.

A path is followed part by part, from the root of the tree if it begins with a slash and else from
the folder that the program is started in. Every part but the last has to lead to a folder, also
where `..` leads back out of it; above the root is the root itself.
-/

namespace ApiSchema

/-- Why a file cannot be read or written. -/
inductive FileFault where
  | notFound
  | alreadyExists
  | notFolder
  | isFolder
  | nameTooLong
  | other (message : Text)
  deriving DecidableEq, Repr

/-- The wording of the system, with its number. -/
def FileFault.message : FileFault → Text
  | notFound => "No such file or directory (os error 2)".toList
  | alreadyExists => "File exists (os error 17)".toList
  | notFolder => "Not a directory (os error 20)".toList
  | isFolder => "Is a directory (os error 21)".toList
  | nameTooLong => "File name too long (os error 36)".toList
  | other message => message

/-- The operations on files that a program is given. -/
structure FileSystem (m : Type → Type) where
  /-- the text of a file -/
  read : Text → m (Except FileFault Text)
  /-- writes a file in a folder that is there -/
  write : (path text : Text) → m (Except FileFault Unit)
  /-- makes a folder in one that is there -/
  makeFolder : Text → m (Except FileFault Unit)
  /-- true of folders, false of files, nothing where there is neither -/
  isFolder? : Text → m (Option Bool)
  /-- the names of the files and folders in a folder, in any order -/
  list : Text → m (List Text)

namespace FileSystem

variable {m : Type → Type} [Monad m]

/-- Makes a folder in one that is there, unless it is there itself. -/
def ensureFolder (files : FileSystem m) (path : Text) : m (Except FileFault Unit) := do
  match ← files.makeFolder path with
  | .error .alreadyExists =>
    if (← files.isFolder? path) == some true then return .ok () else return .error .alreadyExists
  | outcome => return outcome

/-- Makes a folder and those of the folders above it that are missing. The paths begin with that of
the folder, and each is followed by that of the folder above it. -/
def ensureFolders (files : FileSystem m) : List Text → m (Except FileFault Unit)
  | [] => return .ok ()
  | path :: above => do
    match ← files.ensureFolder path with
    | .error .notFound =>
      match ← files.ensureFolders above with
      | .ok () => files.ensureFolder path
      | .error fault => return .error fault
    | outcome => return outcome

/-- Writes a file, and makes the folders above it that are missing. -/
def save (files : FileSystem m) (path text : Text) : m (Except FileFault Unit) := do
  match ← files.ensureFolders (Path.foldersAbove path) with
  | .ok () => files.write path text
  | .error fault => return .error fault

end FileSystem

/-! ## Files in a tree -/

/-- A file with its text, or a folder with what is in it. -/
inductive Node where
  | file (text : Text)
  | folder (entries : List (Text × Node))
  deriving Inhabited

namespace Node

/-- What is in a folder. -/
def entries : Node → List (Text × Node)
  | file _ => []
  | folder entries => entries

/-- What names lead to. -/
def get? : Node → List Text → Option Node
  | node, [] => some node
  | node, name :: names => do (← node.entries.lookup name).get? names

/-- A tree with a node where names lead to. Folders that are missing are made. -/
def put : Node → List Text → Node → Node
  | _, [], node => node
  | root, name :: names, node =>
    let child := (root.entries.lookup name).getD (folder [])
    folder ((root.entries.filter fun entry => entry.1 != name) ++ [(name, child.put names node)])

end Node

/-- Where a path leads: the names from the root, the last one first. -/
abbrev Place := List Text

/-- All files and folders, and the folder that a program is started in, by the names that lead to
it from the root. -/
structure FileTree where
  root : Node
  here : List Text

namespace FileTree

/-- The place that a path starts from. -/
def start (tree : FileTree) (path : Text) : Place :=
  if path.head? = some '/' then [] else tree.here.reverse

/-- What is at a place. -/
def at? (tree : FileTree) (place : Place) : Option Node :=
  tree.root.get? place.reverse

/-- The tree with a node at a place. -/
def putAt (tree : FileTree) (node : Node) (place : Place) : FileTree :=
  { tree with root := tree.root.put place.reverse node }

/-- What is in the folder at a place. -/
def entriesAt (tree : FileTree) (place : Place) : Except FileFault (List (Text × Node)) :=
  match tree.at? place with
  | none => .error .notFound
  | some (.file _) => .error .notFolder
  | some (.folder entries) => .ok entries

/-- Follows the parts of a path from a place. -/
def walk (tree : FileTree) (place : Place) : List Text → Except FileFault Place
  | [] => .ok place
  | part :: rest => do
    let entries ← tree.entriesAt place
    if part.isEmpty || part == ['.'] then walk tree place rest
    else if part == ['.', '.'] then walk tree place.tail rest
    else if Path.nameLimit < Text.byteCount part then .error .nameTooLong
    else if (entries.lookup part).isNone then .error .notFound
    else walk tree (part :: place) rest

/-- Refuses the paths that lead nowhere whatever there is: nothing is at the empty path. -/
def checkPath (path : Text) : Except FileFault Unit :=
  if path.isEmpty then .error .notFound
  else if Path.lengthLimit < Text.byteCount path then .error .nameTooLong
  else .ok ()

/-- The node at a path. -/
def find (tree : FileTree) (path : Text) : Except FileFault Node := do
  checkPath path
  let place ← tree.walk (tree.start path) (Path.parts path)
  match tree.at? place with
  | some node => return node
  | none => .error .notFound

/-- The text of the file at a path. -/
def read (tree : FileTree) (path : Text) : Except FileFault Text := do
  match ← tree.find path with
  | .file text => return text
  | .folder _ => .error .isFolder

/-- The tree with an empty folder at a path. -/
def makeFolder (tree : FileTree) (path : Text) : Except FileFault FileTree := do
  checkPath path
  match Path.splitLast? path with
  | none => .error .alreadyExists
  | some (above, last) =>
    let place ← tree.walk (tree.start path) above
    let entries ← tree.entriesAt place
    if Path.isSpecial last then .error .alreadyExists
    else if Path.nameLimit < Text.byteCount last then .error .nameTooLong
    else if (entries.lookup last).isSome then .error .alreadyExists
    else return tree.putAt (.folder []) (last :: place)

/-- The tree with a text in the file at a path. A path with a slash at its end names no file. -/
def write (tree : FileTree) (path text : Text) : Except FileFault FileTree := do
  checkPath path
  match Path.splitLast? path with
  | none => .error .isFolder
  | some (above, last) =>
    let place ← tree.walk (tree.start path) above
    let entries ← tree.entriesAt place
    if Path.isSpecial last || path.getLast? == some '/' then .error .isFolder
    else if Path.nameLimit < Text.byteCount last then .error .nameTooLong
    else match entries.lookup last with
      | some (.folder _) => .error .isFolder
      | _ => return tree.putAt (.file text) (last :: place)

/-- Changes the tree that is kept as the state, unless that fails. -/
def update (change : FileTree → Except FileFault FileTree) :
    StateM FileTree (Except FileFault Unit) := do
  match change (← get) with
  | .ok tree => set tree; return .ok ()
  | .error fault => return .error fault

/-- The file system of a tree that is kept as the state. -/
def fileSystem : FileSystem (StateM FileTree) where
  read path := do return (← get).read path
  write path text := update (·.write path text)
  makeFolder path := update (·.makeFolder path)
  isFolder? path := do
    match (← get).find path with
    | .ok (.file _) => return some false
    | .ok (.folder _) => return some true
    | .error _ => return none
  list path := do
    match (← get).find path with
    | .ok node => return node.entries.map Prod.fst
    | .error _ => return []

end FileTree

end ApiSchema
