import ApiSchema.Files.FileSystem
import ApiSchema.Files.Pattern

/-!
The files and folders that a path pattern stands for.

The parts of a pattern are followed one after the other. A part without wildcards is looked up;
any other part is held against the names in the folder, in alphabetical order. `**` goes through
all folders below, and the pattern goes on both with what it finds on the way and below it.
-/

namespace ApiSchema.Pattern

variable {m : Type → Type} [Monad m]

/-- The order of names, character by character. -/
def nameLe : Text → Text → Bool
  | [], _ => true
  | _ :: _, [] => false
  | c :: name, d :: other => if c = d then nameLe name other else c < d

/-- A name in a folder. The folder a search starts in is left out of the path. -/
def below (path name : Text) : Text :=
  if Path.isHere path then name else Path.join path name

/-- A path at the end of a pattern. A slash at the end of the pattern asks for a folder. -/
def found (files : FileSystem m) (onlyFolders : Bool) (path : Text) : m (List Text) := do
  if !onlyFolders || (← files.isFolder? path) == some true then return [path] else return []

/-- The paths that the parts of a pattern lead to from a path, in `steps` steps at most: a step
goes to the next part or into a folder. -/
def search (files : FileSystem m) (onlyFolders : Bool) :
    (steps : Nat) → List (List Piece) → Text → m (List Text)
  | 0, _, _ => return []
  | _ + 1, [], _ => return []
  | steps + 1, part :: rest, path => do
    let next (path : Text) : m (List Text) :=
      if rest.isEmpty then found files onlyFolders path
      else search files onlyFolders steps rest path
    let isFolder := (← files.isFolder? path) == some true
    match literal? part with
    | some name =>
      let child := below path name
      let isThere := Path.isSpecial name && isFolder || (← files.isFolder? child).isSome
      if isThere then next child else return []
    | none =>
      if !isFolder then return []
      else
        let special := if part.head? == some (.char '.') then
            [['.', '.'], ['.']].filter (accepts part) else []
        let above ← special.mapM fun name => next (Path.join path name)
        let names := (← files.list path).mergeSort nameLe
        let inside ← names.mapM fun name => do
          let child := below path name
          if part != [.anyFolders] then
            if accepts part name then next child else return []
          else
            let after := rest.dropWhile (· == [.anyFolders])
            let childIsFolder := (← files.isFolder? child) == some true
            let deeper ←
              if childIsFolder then
                search files onlyFolders steps ([.anyFolders] :: after) child
              else pure []
            match after with
            | [] => return if childIsFolder then child :: deeper else []
            | [last] =>
              if accepts last name then return (← found files onlyFolders child) ++ deeper
              else return deeper
            | first :: more =>
              if accepts first name then
                return (← search files onlyFolders steps more child) ++ deeper
              else return deeper
        return above.flatten ++ inside.flatten

/-- The parts of a pattern; a slash at its end does not begin another part. -/
def partTexts (text : Text) : List Text :=
  let parts := Path.parts text
  if parts.getLast? == some [] then parts.dropLast else parts

/-- The paths that a pattern stands for, in order. -/
def glob (files : FileSystem m) (text : Text) : m (Except PatternFault (List Text)) := do
  let relative := text.dropWhile (· == '/')
  let start : Text := if text.head? == some '/' then ['/'] else ['.']
  match (do let _ ← pieces text; (partTexts relative).mapM pieces) with
  | .error fault => return .error fault
  | .ok parts =>
    let onlyFolders := text.getLast? == some '/'
    return .ok (← search files onlyFolders (Path.lengthLimit + parts.length) parts start)

end ApiSchema.Pattern
