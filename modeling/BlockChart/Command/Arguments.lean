import BlockChart.Command.Basic

namespace BlockChart

/-!
# Reading the arguments of the command line

An argument that starts with a dash is an option, a lone dash apart; all arguments
behind a double dash are operands.  An option with a value takes it from the rest
of its own argument (`--output=x`, `-ox`, `-o=x`) or from the next one, which then
must not be an option.  Short options without values may share an argument.  No
option may be given twice, and no file name may be empty.

* `Arguments.read` sorts the arguments of one command;
* `Request.parse` reads a whole command line.
-/

/-- Why the arguments ask for no command. -/
inductive Stop where
  /-- They ask for help. -/
  | help
  /-- They cannot be understood. -/
  | misuse
  deriving DecidableEq, Repr

/-- An option with a value: its short and its long name. -/
structure ValueOption where
  short : Char
  long : String
  deriving DecidableEq, Repr

/-- The arguments that a command takes. -/
structure Synopsis where
  options : List ValueOption
  /-- The largest number of operands. -/
  operands : Nat

/-- Arguments, sorted. -/
structure Arguments where
  verbose : Bool := false
  /-- The values of options, by their short names. -/
  values : List (Char × String) := []
  operands : List String := []
  deriving Repr

namespace Arguments

/-- The value of an option. -/
def value? (a : Arguments) (short : Char) : Option String :=
  (a.values.find? fun (c, _) => c = short).map Prod.snd

/-- Sets the flag for a detailed log. -/
def setVerbose (a : Arguments) : Except Stop Arguments :=
  if a.verbose then .error .misuse else .ok { a with verbose := true }

/-- Sets the value of an option. -/
def setValue (a : Arguments) (short : Char) (v : String) : Except Stop Arguments :=
  if (a.value? short).isSome ∨ v = "" then .error .misuse
  else .ok { a with values := a.values ++ [(short, v)] }

/-- Adds an operand. -/
def addOperand (synopsis : Synopsis) (a : Arguments) (v : String) : Except Stop Arguments :=
  if a.operands.length < synopsis.operands then .ok { a with operands := a.operands ++ [v] }
  else .error .misuse

/-- An option by its long name, and the value that is attached to it.  If a value is
    missing, the answer says for which option. -/
def readLong (synopsis : Synopsis) (a : Arguments) (name : String) (attached : Option String) :
    Except Stop (Arguments × Option Char) :=
  if name = "verbose" then
    if attached.isSome then .error .misuse else a.setVerbose.map (·, none)
  else if name = "help" then
    if attached.isSome then .error .misuse else .error .help
  else
    match synopsis.options.find? (·.long = name), attached with
    | some o, some v => (a.setValue o.short v).map (·, none)
    | some o, none => .ok (a, some o.short)
    | none, _ => .error .misuse

/-- Options by their short names.  The first one with a value takes all that follows
    it, an equals sign apart. -/
def readShort (synopsis : Synopsis) (a : Arguments) :
    List Char → Except Stop (Arguments × Option Char)
  | [] => .ok (a, none)
  | c :: rest =>
    if c = 'v' then do readShort synopsis (← a.setVerbose) rest
    else if c = 'h' then .error .help
    else if synopsis.options.any (·.short = c) then
      match rest with
      | [] => .ok (a, some c)
      | '=' :: v => (a.setValue c (String.ofList v)).map (·, none)
      | v => (a.setValue c (String.ofList v)).map (·, none)
    else .error .misuse

/-- Whether an argument is an option, or the double dash. -/
def isOption (argument : String) : Bool :=
  match argument.toList with
  | '-' :: _ :: _ => true
  | _ => false

/-- One argument that is an option. -/
def readOption (synopsis : Synopsis) (a : Arguments) (argument : String) :
    Except Stop (Arguments × Option Char) :=
  match argument.toList with
  | '-' :: '-' :: long =>
    let name := long.takeWhile (· ≠ '=')
    let attached := match long.drop name.length with
      | '=' :: v => some (String.ofList v)
      | _ => none
    readLong synopsis a (String.ofList name) attached
  | '-' :: short => readShort synopsis a short
  | _ => .error .misuse

/-- Sorts arguments.  `waiting` is the option whose value comes next. -/
def readFrom (synopsis : Synopsis) (a : Arguments) (waiting : Option Char) :
    List String → Except Stop Arguments
  | [] => if waiting.isSome then .error .misuse else .ok a
  | argument :: rest =>
    match waiting with
    | some short =>
      if isOption argument then .error .misuse
      else do readFrom synopsis (← a.setValue short argument) none rest
    | none =>
      if argument = "--" then rest.foldlM (addOperand synopsis) a
      else if isOption argument then do
        let (a, waiting) ← readOption synopsis a argument
        readFrom synopsis a waiting rest
      else do readFrom synopsis (← addOperand synopsis a argument) none rest

/-- **Sorts the arguments of a command.** -/
def read (synopsis : Synopsis) (arguments : List String) : Except Stop Arguments :=
  readFrom synopsis {} none arguments

/-- The file name that must be the only operand. -/
def onlyFile (a : Arguments) : Except Stop String :=
  match a.operands with
  | [name] => if name = "" then .error .misuse else .ok name
  | _ => .error .misuse

end Arguments

/-- A command, and whether its log is detailed. -/
structure Request where
  verbose : Bool
  command : Command
  deriving DecidableEq, Repr

namespace Request

/-- The option for the file to write. -/
def output : ValueOption := ⟨'o', "output"⟩

/-- The option for the dataset. -/
def data : ValueOption := ⟨'d', "data"⟩

/-- How the program is called. -/
def usage : String :=
  "Compile and run block-built chart programs\n\n" ++
  "Usage: [-v] compile <blocks> [-o <program>]\n" ++
  "       [-v] run <program> [-d <dataset>] [-o <svg>]\n" ++
  "       [-v] render <blocks> [-d <dataset>] [-o <svg>]\n" ++
  "       [-v] ops [<opcode>]\n"

/-- The names of the commands. -/
def commandNames : List String := ["compile", "run", "render", "ops", "help"]

/-- The command with a name. -/
def parseCommand (verbose : Bool) (name : String) (arguments : List String) :
    Except Stop Request :=
  match name with
  | "compile" => do
    let a ← Arguments.read ⟨[output], 1⟩ arguments
    return ⟨verbose || a.verbose, .compile (← a.onlyFile) (a.value? 'o')⟩
  | "run" => do
    let a ← Arguments.read ⟨[data, output], 1⟩ arguments
    return ⟨verbose || a.verbose, .run (← a.onlyFile) (a.value? 'd') (a.value? 'o')⟩
  | "render" => do
    let a ← Arguments.read ⟨[data, output], 1⟩ arguments
    return ⟨verbose || a.verbose, .render (← a.onlyFile) (a.value? 'd') (a.value? 'o')⟩
  | "ops" => do
    let a ← Arguments.read ⟨[], 1⟩ arguments
    return ⟨verbose || a.verbose, .operations a.operands.head?⟩
  | "help" =>
    match arguments with
    | [] => .error .help
    | [topic] => if commandNames.contains topic then .error .help else .error .misuse
    | _ => .error .misuse
  | _ => .error .misuse

/-- Reads the options in front of the name of the command, then the command. -/
def parseFrom (a : Arguments) : List String → Except Stop Request
  | [] => .error .misuse
  | argument :: rest =>
    if argument = "--" then .error .misuse
    else if Arguments.isOption argument then do
      let (a, _) ← Arguments.readOption ⟨[], 0⟩ a argument
      parseFrom a rest
    else parseCommand a.verbose argument rest

/-- **Reads a command line.** -/
def parse (arguments : List String) : Except Stop Request :=
  parseFrom {} arguments

end Request

end BlockChart
