import ApiSchema.CommandLine.Command
import ApiSchema.CommandLine.Style
import ApiSchema.Document.Codec
import ApiSchema.Document.Types
import ApiSchema.Files.Search
import ApiSchema.TypeExpr.Outline

/-!
What each command does.

A run ends in a `Report`: the exit code and what goes to the two outputs. `expand` loads and
expands every document before it puts out anything, so a fault in one of them leaves neither a
listing nor an output file.

Documents are expanded within a bound on the recursion. To run into it is no fault of the document,
and the run then comes to no report at all.
-/

namespace ApiSchema

/-- How a run ends. -/
structure Report where
  code : Nat
  stdout : Text
  stderr : Text
  deriving DecidableEq, Repr

namespace Command

/-- The last line of a run that failed. -/
def failureLine (colors : Bool) (message : Text) : Text :=
  Style.boldRed.paint colors "error:".toList ++ ' ' :: message ++ ['\n']

/-- A run that failed with nothing put out. -/
def failed (colors : Bool) (message : Text) : Report where
  code := 1
  stdout := []
  stderr := failureLine colors message

/-! ## Types -/

/-- What is put out about a type, and about what is wrong with it. -/
def checkLines (colors : Bool) (type : Text) : Text × Text :=
  match TypeExpr.check type with
  | .ok () => (Style.green.paint colors "ok".toList ++ ' ' :: type ++ ['\n'], [])
  | .error e =>
    (Style.red.paint colors "invalid".toList ++ ' ' :: type ++ ['\n'],
      ' ' :: ' ' :: Style.dimmed.paint colors e.message ++ ['\n'])

/-- Checks types. -/
def runCheck (colors : Bool) (types : List Text) : Report :=
  let lines := types.map (checkLines colors)
  let failures := (lines.filter fun line => !line.2.isEmpty).length
  let ending :=
    if failures = 0 then []
    else failureLine colors (digits failures ++ " of ".toList ++ digits types.length
      ++ " type(s) failed to check".toList)
  { code := if failures = 0 then 0 else 1
    stdout := lines.flatMap Prod.fst
    stderr := lines.flatMap Prod.snd ++ ending }

/-- Parses a type. -/
def runParse (colors : Bool) (type : Text) : Report :=
  match TypeExpr.parse type with
  | .ok t => { code := 0, stdout := t.outline, stderr := [] }
  | .error e => failed colors e.message

/-! ## Documents -/

variable {m : Type → Type} [Monad m]

/-- True of the paths that are looked for as patterns. -/
def isPattern (path : Text) : Bool :=
  path.any fun c => c == '*' || c == '?' || c == '[' || c == '{'

/-- The paths that an input stands for. -/
def resolveInput (files : FileSystem m) (input : Text) : ExceptT Text m (List Text) := do
  if isPattern input then
    match ← ExceptT.lift (Pattern.glob files input) with
    | .error fault => throw fault.message
    | .ok [] => throw ("glob pattern matched no files: ".toList ++ input)
    | .ok paths => return paths
  else
    return [input]

/-- The document in a file. -/
def loadDocument (files : FileSystem m) (path : Text) : ExceptT Text m Document := do
  match ← files.read path with
  | .error fault => throw ("failed to read ".toList ++ path ++ ": ".toList ++ fault.message)
  | .ok text =>
    match Document.codec.decode text with
    | .error failure =>
      throw ("failed to parse ".toList ++ path ++ ": ".toList ++ failure.message)
    | .ok document => return document

/-- The documents of all inputs with their paths. -/
def loadInputs (files : FileSystem m) (inputs : List Text) :
    ExceptT Text m (List (Text × Document)) := do
  let paths ← inputs.mapM (resolveInput files)
  paths.flatten.mapM fun path => return (path, ← loadDocument files path)

/-- The expanded definitions of the document in a file with its path, or why there are none. There
is no outcome if the document runs into the bound. -/
def expandDocument (depth : Nat) (path : Text) (document : Document) :
    Option (Except Text (Text × List ConcreteDefinition)) :=
  match document.expand depth with
  | .ok definitions => some (.ok (path, definitions))
  | .error (.error e) => some (.error (path ++ ": ".toList ++ e.message))
  | .error .tooDeep => none

/-- The expanded definitions of documents with their paths, or the first fault. The documents are
expanded side by side, so when one of them runs into the bound there is no outcome, whatever comes
of the others. -/
def expandDocuments (depth : Nat) (documents : List (Text × Document)) :
    Option (Except Text (List (Text × List ConcreteDefinition))) := do
  let outcomes ← documents.mapM fun (path, document) => expandDocument depth path document
  return outcomes.mapM id

/-- The expanded definitions of all inputs with their paths. All documents are loaded before the
first is expanded. -/
def expandInputs (files : FileSystem m) (depth : Nat) (inputs : List Text) :
    m (Option (Except Text (List (Text × List ConcreteDefinition)))) := do
  match ← (loadInputs files inputs).run with
  | .error message => return some (.error message)
  | .ok documents => return expandDocuments depth documents

/-- The listing of the definitions of one document, below a line with its path if there are
others. -/
def documentListing (withHeader : Bool) (path : Text) (definitions : List ConcreteDefinition) :
    Text :=
  (if withHeader then "# ".toList ++ path ++ ['\n'] else [])
    ++ definitions.flatMap fun d => d.listing ++ ['\n']

/-- The listings of documents, one below the other with an empty line between them. -/
def fullListing (expanded : List (Text × List ConcreteDefinition)) : Text :=
  Text.join ['\n']
    (expanded.map fun (path, definitions) =>
      documentListing (1 < expanded.length) path definitions)

/-- Puts the listing of documents out, or writes it to a file. -/
def putListing (files : FileSystem m) (colors : Bool) (out : Option Text)
    (expanded : List (Text × List ConcreteDefinition)) : m Report := do
  let listing := fullListing expanded
  match out with
  | none => return { code := 0, stdout := listing ++ ['\n'], stderr := [] }
  | some path =>
    match ← files.save path listing with
    | .error fault => return failed colors fault.message
    | .ok () =>
      let count := (expanded.flatMap fun (_, definitions) => definitions).length
      return {
        code := 0
        stdout := []
        stderr := Style.green.paint colors "wrote".toList ++ ' ' :: digits count
          ++ " definition(s) → ".toList ++ path ++ ['\n'] }

/-- Ends a run by what came of its inputs: a listing is put out, a fault is reported, and if there
is neither, there is no report. -/
def conclude (files : FileSystem m) (colors : Bool) (out : Option Text) :
    Option (Except Text (List (Text × List ConcreteDefinition))) → m (Option Report)
  | none => return none
  | some (.error message) => return some (failed colors message)
  | some (.ok expanded) => return some (← putListing files colors out expanded)

/-- Expands documents, and puts their listing out. -/
def runExpand (files : FileSystem m) (depth : Nat) (colors : Bool) (inputs : List Text)
    (out : Option Text) : m (Option Report) := do
  conclude files colors out (← expandInputs files depth inputs)

/-- A short account of the commands. -/
def helpText : Text :=
  ("usage: check TYPE...\n" ++ "       parse TYPE\n"
    ++ "       expand --input FILE... [--out FILE] [--no-op]\n").toList

/-- Runs a command. There is no report if a document runs into the bound. -/
def run (files : FileSystem m) (depth : Nat) (colors : Bool) : Command → m (Option Report)
  | check types => return some (runCheck colors types)
  | parse type => return some (runParse colors type)
  | expand inputs out noOp =>
    if noOp then
      return some { code := 0, stdout := [], stderr := debugExpand inputs out noOp }
    else runExpand files depth colors inputs out

/-- Runs the command that arguments ask for. Arguments that are wrong end with code 2. -/
def runArguments (files : FileSystem m) (depth : Nat) (colors : Bool) (arguments : List Text) :
    m (Option Report) :=
  match read arguments with
  | .wrong => return some { code := 2, stdout := [], stderr := helpText }
  | .help => return some { code := 0, stdout := helpText, stderr := [] }
  | .done command => run files depth colors command

end Command

end ApiSchema
