import BlockChart.Chart
import BlockChart.Toml.Reader

namespace BlockChart.Settings

/-!
# Where settings come from

Settings start from their defaults.  The first settings file that is a TOML document
changes some of them, and then the environment does.  A value of the wrong type, and
a number that is not positive, changes nothing.

* `Settings.withDocument` applies a settings file;
* `Settings.withEnvironment` applies the environment;
* `Settings.load` does all of it.
-/

/-- The name of the settings file next to a program. -/
def fileName : String := ".chartly.toml"

/-- Sets the nesting limit to a positive number. -/
def withMaxDepth (n : Option Nat) (s : Settings) : Settings :=
  match n with
  | some n => if 0 < n then { s with maxDepth := n } else s
  | none => s

/-- Sets the width to a positive number. -/
def withWidth (x : Option Float) (s : Settings) : Settings :=
  match x with
  | some x => if 0 < x then { s with width := x } else s
  | none => s

/-- Sets the height to a positive number. -/
def withHeight (x : Option Float) (s : Settings) : Settings :=
  match x with
  | some x => if 0 < x then { s with height := x } else s
  | none => s

/-- Sets the level of the log. -/
def withLogLevel (level : Option String) (s : Settings) : Settings :=
  match level with
  | some level => { s with logLevel := some level }
  | none => s

/-! ### Settings files -/

/-- A whole number that is not negative. -/
def whole? : Toml → Option Nat
  | .int n => if 0 ≤ n then some n.toNat else none
  | _ => none

/-- A number. -/
def number? : Toml → Option Float
  | .int n => some (Float.ofInt n)
  | .float x => some x
  | _ => none

/-- A text. -/
def text? : Toml → Option String
  | .string s => some s
  | _ => none

/-- The value of a key in a section. -/
def setting? (document : Toml) (sectionName key : String) : Option Toml :=
  (document.get? sectionName).bind (·.get? key)

/-- **Applies a settings file.** -/
def withDocument (document : Toml) (s : Settings) : Settings :=
  s |>.withMaxDepth ((setting? document "run" "max_depth").bind whole?)
    |>.withWidth ((setting? document "render" "width").bind number?)
    |>.withHeight ((setting? document "render" "height").bind number?)
    |>.withLogLevel ((setting? document "log" "level").bind text?)

/-- The first text that is a TOML document. -/
def firstDocument? : List String → Option Toml
  | [] => none
  | text :: rest => (Toml.read? text).orElse fun _ => firstDocument? rest

/-! ### The environment -/

/-- The variables that are set, with their values. -/
abbrev Environment := List (String × String)

/-- The variables that are settings. -/
def variableNames : List String :=
  ["CHARTLY_MAX_DEPTH", "CHARTLY_WIDTH", "CHARTLY_HEIGHT", "CHARTLY_LOG"]

/-- The value of a variable. -/
def variableOf? (environment : Environment) (name : String) : Option String :=
  lookupEntry name environment

/-- Decimal digits with an optional plus sign, below `2 ^ 64`. -/
def readCount? (text : String) : Option Nat :=
  let digits := match text.toList with
    | '+' :: rest => rest
    | cs => cs
  if digits.isEmpty ∨ !digits.all Char.isDigit then none
  else (some (digitsValue digits)).filter (· < Nat.pow 2 64)

/-- **Applies the environment.** -/
def withEnvironment (environment : Environment) (s : Settings) : Settings :=
  s |>.withMaxDepth ((variableOf? environment "CHARTLY_MAX_DEPTH").bind readCount?)
    |>.withWidth ((variableOf? environment "CHARTLY_WIDTH").bind readFloat?)
    |>.withHeight ((variableOf? environment "CHARTLY_HEIGHT").bind readFloat?)
    |>.withLogLevel (variableOf? environment "CHARTLY_LOG")

/-- **The settings** that the texts of the settings files, the most important one
    first, and the environment give. -/
def load (files : List String) (environment : Environment) : Settings :=
  let settings : Settings := {}
  let settings := match firstDocument? files with
    | some document => settings.withDocument document
    | none => settings
  settings.withEnvironment environment

end BlockChart.Settings
