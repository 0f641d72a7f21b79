import BlockChart.Block.Compile
import BlockChart.Command.Basic
import BlockChart.Dataset
import BlockChart.Program.Decode
import BlockChart.Program.Encode

namespace BlockChart.Command

/-!
# Performing commands

A command reads files and gives a text, which goes to a file or to standard output.
`Command.perform` is a function of the texts of the files, so that it says what a
command does wherever the files are.
-/

/-- Why a command gave no text. -/
inductive Failure where
  /-- A file cannot be read. -/
  | unreadable (what name : String)
  | fault (cause : Fault)
  deriving Repr

/-- The wording of a failure. -/
def Failure.message : Failure → String
  | .unreadable what name => "reading " ++ what ++ " " ++ name
  | .fault cause => cause.message

/-- What a command gives: a text, and the file that it is for.  Without a file it is
    for standard output. -/
structure Output where
  text : String
  target : Option String := none
  deriving Repr

/-- The texts of files by their names. -/
abbrev Reading := String → Option String

/-- The text of a file. -/
def readFile (reading : Reading) (what name : String) : Except Failure String :=
  match reading name with
  | some text => .ok text
  | none => .error (.unreadable what name)

/-- A failure by a fault. -/
def faulty {α : Type} (r : Except Fault α) : Except Failure α :=
  r.mapError .fault

/-- Compiles the workspace in a file. -/
def compileFile (reading : Reading) (name : String) : Except Failure Program := do
  let text ← readFile reading "workspace" name
  faulty do (← Workspace.parse text).compile

/-- Reads the program in a file. -/
def readProgram (reading : Reading) (name : String) : Except Failure Program := do
  let text ← readFile reading "program" name
  faulty (Program.parse text)

/-- The table in a file; without a file it is empty. -/
def readTable (reading : Reading) : Option String → Except Failure Table
  | none => .ok .empty
  | some name => do
    let text ← readFile reading "dataset" name
    faulty (Dataset.parse (.ofString name) text)

/-- The SVG text of a program that is run over the table in a file. -/
def drawFile (reading : Reading) (settings : Settings) (p : Program) (data : Option String) :
    Except Failure String := do
  let table ← readTable reading data
  let chart ← faulty (Chart.draw settings table p)
  return chart.svg

/-- A line for each category, with the operations in it. -/
def listing : String :=
  String.join (Opcode.palette.map fun (label, ops) =>
    label ++ ": " ++ ", ".intercalate (ops.map Opcode.name) ++ "\n")

/-- A line on what a name means. -/
def explain (name : String) : String :=
  match Opcode.ofName? name with
  | some op => name ++ ": " ++ op.category.label ++ "\n"
  | none =>
    match Opcode.suggest? name with
    | some hint => name ++ ": unknown (did you mean '" ++ hint.name ++ "'?)\n"
    | none => name ++ ": unknown\n"

/-- **Performs a command.** -/
def perform (reading : Reading) (settings : Settings) : Command → Except Failure Output
  | .compile blocks output => do
    let p ← compileFile reading blocks
    return ⟨p.toJson.pretty, output⟩
  | .run program data output => do
    let p ← readProgram reading program
    return ⟨← drawFile reading settings p data, output⟩
  | .render blocks data output => do
    let p ← compileFile reading blocks
    return ⟨← drawFile reading settings p data, output⟩
  | .operations none => .ok ⟨listing, none⟩
  | .operations (some name) => .ok ⟨explain name, none⟩

end BlockChart.Command
