import BlockChart.Path
import BlockChart.Settings

namespace BlockChart

/-!
# Commands

What the command line can ask for.  Files are given by their names.
-/

/-- A command. -/
inductive Command where
  /-- Compile the blocks of a workspace to a program. -/
  | compile (blocks : String) (output : Option String)
  /-- Run a program over a dataset, and write the drawing. -/
  | run (program : String) (data output : Option String)
  /-- Compile a workspace and run the program. -/
  | render (blocks : String) (data output : Option String)
  /-- List the operations, or look one up. -/
  | operations (name : Option String)
  deriving DecidableEq, Repr

namespace Command

/-- The file that a command works on. -/
def input? : Command → Option String
  | .compile blocks _ => some blocks
  | .run program _ _ => some program
  | .render blocks _ _ => some blocks
  | .operations _ => none

/-- The file of the dataset. -/
def data? : Command → Option String
  | .run _ data _ => data
  | .render _ data _ => data
  | _ => none

/-- The settings file of a command, which stands next to its input. -/
def settingsFile? (c : Command) : Option String :=
  c.input?.bind fun name => ((Path.ofString name).inParent Settings.fileName).map Path.toString

/-- The files that a command may read. -/
def files (c : Command) : List String :=
  c.input?.toList ++ c.data?.toList ++ c.settingsFile?.toList

end Command

end BlockChart
