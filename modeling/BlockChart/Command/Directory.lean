import BlockChart.Command.Arguments
import BlockChart.Command.Perform

namespace BlockChart

/-!
# Commands in a directory

A directory as a value: the files under it, by the names on the way to them.
`Directory.execute` is the whole program as a function from the command line, the
environment and a directory to its exit code, its output and the directory after it.
-/

/-- The files under a directory, each with the names on the way to it. -/
structure Directory where
  files : List (List String × String)
  deriving Repr

namespace Directory

/-- The text of the file at a place. -/
def lookup? (d : Directory) (place : List String) : Option String :=
  (d.files.find? fun (names, _) => names = place).map Prod.snd

/-- Whether a place is a directory: this one, or one that holds a file. -/
def isDirectory (d : Directory) (place : List String) : Bool :=
  place.isEmpty || d.files.any fun (names, _) =>
    place.length < names.length && place.isPrefixOf names

/-- The directory that names lead to from a place.  Two dots lead to the directory
    above; nothing above this directory is known. -/
def walk? (d : Directory) : List String → List String → Option (List String)
  | place, [] => some place
  | place, name :: rest =>
    if name = "." then d.walk? place rest
    else if name = ".." then
      if place.isEmpty then none else d.walk? place.dropLast rest
    else if d.isDirectory (place ++ [name]) then d.walk? (place ++ [name]) rest
    else none

/-- Whether the spelling of a path says that it is a directory. -/
def spellsDirectory (path : String) : Bool :=
  path.endsWith "/" || path.endsWith "/."

/-- The place of a file: the directory before its name must exist. -/
def place? (d : Directory) (path : String) : Option (List String) := do
  let p := Path.ofString path
  if p.absolute || spellsDirectory path then none
  else
    let name ← p.fileName?
    let parent ← d.walk? [] p.names.dropLast
    some (parent ++ [name])

/-- **Reads a file.** -/
def read? (d : Directory) (path : String) : Option String :=
  (d.place? path).bind d.lookup?

/-- Replaces the text of a file, or adds the file. -/
def replace (place : List String) (text : String) :
    List (List String × String) → List (List String × String)
  | [] => [(place, text)]
  | (names, old) :: rest =>
    if names = place then (names, text) :: rest else (names, old) :: replace place text rest

/-- **Writes a file**, which must not be a directory. -/
def write? (d : Directory) (path text : String) : Option Directory := do
  let place ← d.place? path
  if d.isDirectory place then none else some ⟨replace place text d.files⟩

/-- The files that are not the same in an earlier directory. -/
def changesSince (d before : Directory) : List (List String × String) :=
  d.files.filter fun (names, text) => before.lookup? names ≠ some text

/-! ### The whole program -/

/-- What running the program gives. -/
structure Outcome where
  code : Nat
  stdout : String
  directory : Directory
  deriving Repr

/-- The settings of a command. -/
def settings (d : Directory) (environment : Settings.Environment) (c : Command) : Settings :=
  Settings.load (c.settingsFile?.bind d.read?).toList environment

/-- Puts the output of a command where it belongs. -/
def emit (d : Directory) (output : Command.Output) : Outcome :=
  match output.target with
  | none => ⟨0, output.text, d⟩
  | some path =>
    match d.write? path output.text with
    | some after => ⟨0, "", after⟩
    | none => ⟨1, "", d⟩

/-- **Runs the program.**  The exit code is 2 for a command line that cannot be
    understood, and 1 for a command that fails; neither leaves any output. -/
def execute (d : Directory) (environment : Settings.Environment) (arguments : List String) :
    Outcome :=
  match Request.parse arguments with
  | .error .help => ⟨0, Request.usage, d⟩
  | .error .misuse => ⟨2, "", d⟩
  | .ok request =>
    match request.command.perform d.read? (d.settings environment request.command) with
    | .ok output => d.emit output
    | .error _ => ⟨1, "", d⟩

end Directory

end BlockChart
