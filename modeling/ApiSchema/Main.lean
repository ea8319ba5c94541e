import ApiSchema.CommandLine.Run

/-!
The program: the command line on the files of the system.
-/

namespace ApiSchema

/-- The fault of a failed operation. -/
def FileFault.ofError : IO.Error → FileFault
  | .noFileOrDirectory .. => .notFound
  | .alreadyExists .. => .alreadyExists
  | .inappropriateType _ code details => byCode code details
  | .invalidArgument _ code details => byCode code details
  | .otherError code details => byCode code details
  | e => .other (toString e).toList
where
  /-- The system's numbers come with either sign. -/
  byCode (code : UInt32) (details : String) : FileFault :=
    if code = 20 ∨ 0 - code = 20 then .notFolder
    else if code = 21 ∨ 0 - code = 21 then .isFolder
    else if code = 36 ∨ 0 - code = 36 then .nameTooLong
    else .other details.toList

/-- Runs an operation, and gives its failure as a fault. -/
def withFault {α : Type} (operation : IO α) : IO (Except FileFault α) := do
  try return .ok (← operation) catch e => return .error (FileFault.ofError e)

/-- The files of the system. -/
def systemFiles : FileSystem IO where
  read path := withFault do return (← IO.FS.readFile (String.ofList path)).toList
  write path text := withFault do
    IO.FS.writeFile (String.ofList path) (String.ofList text)
  makeFolder path := withFault do IO.FS.createDir (String.ofList path)
  isFolder? path := do
    if path.isEmpty then return none
    let entry : IO.FS.DirEntry := { root := ".", fileName := String.ofList path }
    try
      return some ((← entry.path.metadata).type matches .dir)
    catch _ => return none
  list path := do
    let entry : IO.FS.DirEntry := { root := ".", fileName := String.ofList path }
    try
      return (← entry.path.readDir).toList.map fun child => child.fileName.toList
    catch _ => return []

/-- Whether colours are on: forced by one variable, ruled out by another, and else for
terminals. -/
def colorsOn : IO Bool := do
  let forced ← IO.getEnv "CLICOLOR_FORCE"
  if forced.any (· != "0") then return true
  if (← IO.getEnv "NO_COLOR").isSome then return false
  (← IO.getStdout).isTty

/-- A bound on the recursion that is never reached: the stack ends before it. -/
def beyondStack : Nat := 0x4000000000000000

/-- The exit code of a program that was aborted. -/
def abortCode : UInt32 := 134

end ApiSchema

open ApiSchema in
/-- Runs the command that the arguments ask for. -/
def main (arguments : List String) : IO UInt32 := do
  let texts := arguments.map String.toList
  match ← Command.runArguments systemFiles beyondStack (← colorsOn) texts with
  | none =>
    IO.eprintln "generic definitions expand without end"
    return abortCode
  | some report =>
    IO.print (String.ofList report.stdout)
    IO.eprint (String.ofList report.stderr)
    return report.code.toUInt32
