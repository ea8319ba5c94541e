import ApiSchema.Text.Quoted

/-!
The command line: what it asks for, and how it is read.

There are three commands. `check` takes one or more types, `parse` takes one, and `expand` takes
input files, an output file and a flag for trying out. Arguments after `--` are never options. An
option may hold its value after `=`, or in the same argument if its name is one letter.
-/

namespace ApiSchema

/-- What a command line asks for. -/
inductive Command where
  | check (types : List Text)
  | parse (type : Text)
  | expand (inputs : List Text) (out : Option Text) (noOp : Bool)
  deriving DecidableEq, Repr

namespace Command

/-- What comes of reading arguments. -/
inductive Reading (α : Type) where
  /-- the arguments are wrong -/
  | wrong
  /-- they ask for help -/
  | help
  | done (value : α)
  deriving DecidableEq, Repr

/-- True of the options that ask for help. -/
def asksForHelp (argument : Text) : Bool :=
  argument == "--help".toList || "-h".toList.isPrefixOf argument

/-- True of the arguments that are options or end them. A hyphen by itself is a value. -/
def isOption (argument : Text) : Bool :=
  argument.head? == some '-' && 1 < argument.length

/-- Reads the types of a command that has no options but the one for help. `reversed` holds the
types so far. -/
def readTypes (reversed : List Text) : List Text → Reading (List Text)
  | [] => .done reversed.reverse
  | argument :: rest =>
    if argument = "--".toList then .done (reversed.reverse ++ rest)
    else if asksForHelp argument then .help
    else if isOption argument then .wrong
    else readTypes (argument :: reversed) rest

/-- Reads the one type of a command. `known` holds it once it was read; a second one is wrong, even
if the command is asked for help after it. -/
def readType (known : Option Text) : List Text → Reading Text
  | [] => (known.map Reading.done).getD .wrong
  | argument :: rest =>
    if argument = "--".toList then
      match known.toList ++ rest with
      | [type] => .done type
      | _ => .wrong
    else if asksForHelp argument then .help
    else if isOption argument || known.isSome then .wrong
    else readType (some argument) rest

/-! ## Options of `expand` -/

/-- What is known of the options so far. -/
structure Options where
  inputs : List Text := []
  out : Option Text := none
  noOp : Bool := false
  deriving DecidableEq, Repr

/-- Which option the next value belongs to. -/
inductive Pending where
  | nothing
  /-- the inputs; the flag tells whether one was given since the option -/
  | inputs (given : Bool)
  | out
  deriving DecidableEq, Repr

/-- Whether an option may come where the last one may still need a value. -/
def Pending.isComplete : Pending → Bool
  | nothing => true
  | inputs given => given
  | out => false

/-- Adds an input. -/
def Options.addInput (o : Options) (input : Text) : Options :=
  { o with inputs := o.inputs ++ [input] }

/-- Sets the output file, which has a name and is given once. -/
def Options.setOut? (o : Options) (out : Text) : Option Options :=
  if o.out.isSome || out.isEmpty then none else some { o with out := some out }

/-- What follows a name in an argument that starts with it. -/
def afterName? (name : String) (argument : Text) : Option Text :=
  if name.toList.isPrefixOf argument then some (argument.drop name.toList.length) else none

/-- The value in the same argument as an option of one letter, with `=` in between or without. -/
def attachedValue (text : Text) : Text :=
  match text with
  | '=' :: value => value
  | _ => text

/-- One option: the options after it, and which option the next value belongs to. -/
def readOption (o : Options) (argument : Text) : Option (Options × Pending) :=
  if argument = "--no-op".toList then
    if o.noOp then none else some ({ o with noOp := true }, .nothing)
  else if argument = "--input".toList || argument = "-i".toList then some (o, .inputs false)
  else if argument = "--out".toList || argument = "-o".toList then
    if o.out.isSome then none else some (o, .out)
  else match afterName? "--input=" argument with
    | some value => some (o.addInput value, .nothing)
    | none =>
      match afterName? "--out=" argument with
      | some value => (o.setOut? value).map (·, .nothing)
      | none =>
        match afterName? "-i" argument with
        | some text => some (o.addInput (attachedValue text), .nothing)
        | none =>
          match afterName? "-o" argument with
          | some text => (o.setOut? (attachedValue text)).map (·, .nothing)
          | none => none

/-- One value, for the option that it belongs to. -/
def readOptionValue (o : Options) (pending : Pending) (value : Text) :
    Option (Options × Pending) :=
  match pending with
  | .nothing => none
  | .inputs _ => some (o.addInput value, .inputs true)
  | .out => (o.setOut? value).map (·, .nothing)

/-- Reads the arguments of `expand`. -/
def readOptions (o : Options) (pending : Pending) : List Text → Reading Options
  | [] => if pending.isComplete then .done o else .wrong
  | argument :: rest =>
    if isOption argument then
      if !pending.isComplete then .wrong
      else if argument = "--".toList then if rest.isEmpty then .done o else .wrong
      else if asksForHelp argument then .help
      else match readOption o argument with
        | some (o, pending) => readOptions o pending rest
        | none => .wrong
    else match readOptionValue o pending argument with
      | some (o, pending) => readOptions o pending rest
      | none => .wrong

/-! ## Commands -/

/-- The arguments of `check`. -/
def readCheck (arguments : List Text) : Reading Command :=
  match readTypes [] arguments with
  | .wrong => .wrong
  | .help => .help
  | .done [] => .wrong
  | .done types => .done (check types)

/-- The arguments of `parse`. -/
def readParse (arguments : List Text) : Reading Command :=
  match readType none arguments with
  | .wrong => .wrong
  | .help => .help
  | .done type => .done (parse type)

/-- The arguments of `expand`. -/
def readExpand (arguments : List Text) : Reading Command :=
  match readOptions {} .nothing arguments with
  | .wrong => .wrong
  | .help => .help
  | .done o => if o.inputs.isEmpty then .wrong else .done (expand o.inputs o.out o.noOp)

/-- The arguments of `help`. -/
def readHelp (arguments : List Text) : Reading Command :=
  match arguments with
  | [] => .help
  | [topic] => if topic ∈ ["check", "parse", "expand", "help"].map String.toList then .help
    else .wrong
  | _ => .wrong

/-- What arguments ask for. -/
def read (arguments : List Text) : Reading Command :=
  match arguments with
  | [] => .wrong
  | name :: rest =>
    if name = "check".toList then readCheck rest
    else if name = "parse".toList then readParse rest
    else if name = "expand".toList then readExpand rest
    else if name = "help".toList then readHelp rest
    else if asksForHelp name then .help
    else .wrong

/-! ## The debugging text -/

/-- A line that is indented by four blanks for each level. -/
def debugLine (level : Nat) (text : Text) : Text :=
  List.replicate (4 * level) ' ' ++ text ++ ['\n']

/-- What is shown of a call of `expand` that is only tried out. -/
def debugExpand (inputs : List Text) (out : Option Text) (noOp : Bool) : Text :=
  let line (level : Nat) (text : String) : Text := debugLine level text.toList
  let outLines : Text := match out with
    | none => line 3 "out: None,"
    | some path =>
      line 3 "out: Some(" ++ debugLine 4 (path.quoted ++ [',']) ++ line 3 "),"
  line 0 "CommandLineInterface \x7b"
    ++ line 1 "cmd: Expand("
    ++ line 2 "ExpandCmd \x7b"
    ++ line 3 "input_settings: InputSettings \x7b"
    ++ line 4 "input: ["
    ++ inputs.flatMap (fun input => debugLine 5 (input.quoted ++ [',']))
    ++ line 4 "],"
    ++ line 3 "\x7d,"
    ++ outLines
    ++ line 3 (if noOp then "no_op: true," else "no_op: false,")
    ++ line 2 "\x7d,"
    ++ line 1 "),"
    ++ line 0 "\x7d"

end Command

end ApiSchema
