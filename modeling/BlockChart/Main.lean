import BlockChart.Command.Arguments
import BlockChart.Command.Perform

/-!
# The command line

Reads the files that a command may need, performs it, and writes what it gives.  All
decisions are in `Request.parse`, `Settings.load` and `Command.perform`.
-/

namespace BlockChart.CommandLine

/-- The text of a file, if it can be read. -/
def readFile? (name : String) : IO (Option String) := do
  try
    return some (← IO.FS.readFile name)
  catch _ =>
    return none

/-- The texts of the files that can be read, by their names. -/
def readFiles (names : List String) : IO (List (String × String)) :=
  names.filterMapM fun name => return (← readFile? name).map (name, ·)

/-- The variables of the environment that are settings. -/
def environment : IO Settings.Environment :=
  Settings.variableNames.filterMapM fun name => return (← IO.getEnv name).map (name, ·)

/-- The name of the user's own settings file. -/
def userSettings? : IO (Option String) := do
  let directory ← match ← IO.getEnv "XDG_CONFIG_HOME" with
    | some directory => pure (some directory)
    | none => pure ((← IO.getEnv "HOME").map (· ++ "/.config"))
  return directory.map (· ++ "/chartly/config.toml")

/-- Writes a text to a file by way of a new file next to it, so that no half-written
    file is ever seen.  If the new file cannot take its place, it is removed. -/
def writeFile (name text : String) : IO Unit := do
  let draft := name ++ ".tmp"
  IO.FS.writeFile draft text
  try
    IO.FS.rename draft name
  catch e =>
    IO.FS.removeFile draft
    throw e

/-- Performs a command and returns the exit code. -/
def perform (command : Command) : IO UInt32 := do
  let texts ← readFiles command.files
  let own := command.settingsFile?.bind fun name => lookupEntry name texts
  let user ← match ← userSettings? with
    | some name => readFile? name
    | none => pure none
  let settings := Settings.load (own.toList ++ user.toList) (← environment)
  match command.perform (fun name => lookupEntry name texts) settings with
  | .error failure =>
    IO.eprintln ("Error: " ++ failure.message)
    return 1
  | .ok output =>
    match output.target with
    | none =>
      IO.print output.text
      return 0
    | some name =>
      try
        writeFile name output.text
        return 0
      catch e =>
        IO.eprintln ("Error: " ++ toString e)
        return 1

end BlockChart.CommandLine

/-- Runs the command that the arguments ask for. -/
def main (arguments : List String) : IO UInt32 := do
  match BlockChart.Request.parse arguments with
  | .ok request => BlockChart.CommandLine.perform request.command
  | .error .help =>
    IO.print BlockChart.Request.usage
    return 0
  | .error .misuse =>
    IO.eprint BlockChart.Request.usage
    return 2
