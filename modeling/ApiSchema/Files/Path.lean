import ApiSchema.Text.Basic

/-!
Paths of files as texts, with a slash between names.

A path keeps the spelling it was given. Empty parts and the part `.` lead nowhere, and only a `.`
at the front of a path counts as one of its names.
-/

namespace ApiSchema.Path

/-- No name of a file has more bytes. -/
def nameLimit : Nat := 255

/-- No path has more bytes. -/
def lengthLimit : Nat := 4095

/-- The texts between the slashes of a path. There is always one more of them than of slashes. -/
def parts : Text → List Text
  | [] => [[]]
  | c :: rest =>
    match parts rest with
    | [] => [[c]]
    | part :: others => if c = '/' then [] :: part :: others else (c :: part) :: others

/-- A name below a path. -/
def join (path name : Text) : Text :=
  if path.isEmpty || path.getLast? == some '/' then path ++ name else path ++ '/' :: name

/-- The parts of a path that are not empty and do not stand for the folder itself. -/
def names (path : Text) : List Text :=
  (parts path).filter fun part => !part.isEmpty && part != ['.']

/-- True of the paths of the folder that a program is started in, such as `.` and `./.`. -/
def isHere (path : Text) : Bool :=
  path.head? == some '.' && (names path).isEmpty

/-- True of `.` and `..`, which are folders wherever there is a folder. -/
def isSpecial (name : Text) : Bool :=
  name == ['.'] || name == ['.', '.']

/-- The part of a path that is in front of the slashes at its end, with the parts before it. -/
def splitLast? (path : Text) : Option (List Text × Text) :=
  match (parts path).reverse.dropWhile List.isEmpty with
  | [] => none
  | last :: above => some (above.reverse, last)

/-- The paths that end at a name, from the longest to the shortest, given the parts with the last
one in front. -/
def spine : List Text → List Text
  | [] => []
  | part :: above =>
    let isName := !part.isEmpty && (part != ['.'] || above.isEmpty)
    if isName then Text.join ['/'] (part :: above).reverse :: spine above else spine above

/-- The folders above what a path names, the nearest first. The root of all folders is not one of
them. -/
def foldersAbove (path : Text) : List Text :=
  (spine (parts path).reverse).drop 1

theorem parts_ne_nil (path : Text) : parts path ≠ [] := by
  cases path with
  | nil => simp [parts]
  | cons c rest =>
    unfold parts
    split
    · simp
    · split <;> simp

example : foldersAbove "./a//b/../c/.".toList
    = ["./a//b/..", "./a//b", "./a", "."].map String.toList := by
  decide +kernel

end ApiSchema.Path
