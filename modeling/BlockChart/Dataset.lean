import BlockChart.Fault
import BlockChart.Json.Parser
import BlockChart.Path
import BlockChart.Table
import BlockChart.Yaml.Reader

namespace BlockChart

/-!
# Datasets

A dataset is a value of one of two shapes: an object with `rows`, a list of lists,
and optionally `columns`, a list of names; or a list of records.  It is written in
JSON (`Dataset.parseJson`) or in YAML (`Dataset.parseYaml`); for a file, the
extension of its name decides (`Dataset.parse`).
-/

namespace Dataset

/-- How often a key occurs. -/
def occurrences (key : String) (entries : List (String × Json)) : Nat :=
  (entries.filter fun (k, _) => k = key).length

/-- A list of texts. -/
def texts? : Json → Option (List String)
  | .array items => items.mapM fun
    | .string s => some s
    | _ => none
  | _ => none

/-- The cells of a row. -/
def cells? : Json → Option (List Value)
  | .array items => some (items.map fun v => Value.ofJson v.mergeKeys)
  | _ => none

/-- A list of rows. -/
def rows? : Json → Option (List (List Value))
  | .array items => items.mapM cells?
  | _ => none

/-- A table given by rows and names of columns.  Neither key may be repeated. -/
def tableOf? (entries : List (String × Json)) : Option Table := do
  let rows ← lookupEntry "rows" entries
  let rows ← rows? rows
  let columns ← match lookupEntry "columns" entries with
    | some names => texts? names
    | none => some []
  if occurrences "rows" entries ≤ 1 ∧ occurrences "columns" entries ≤ 1 then some ⟨columns, rows⟩
  else none

/-- A record. -/
def record? (v : Json) : Option Record :=
  match v.mergeKeys with
  | .object entries => some entries
  | _ => none

/-- **The table of a dataset**, whose objects may still have repeated keys. -/
def ofJson? : Json → Option Table
  | .object entries => tableOf? entries
  | .array items => (items.mapM record?).map Table.ofRecords
  | _ => none

/-- The depth of arrays and objects that a dataset may have. -/
def maxNesting : Nat := 127

/-- **Reads a dataset** from JSON text.  Its shape is checked before what follows it
    in the text. -/
def parseJson (text : String) : Except Fault Table :=
  match Json.readPrefix? (some maxNesting) text with
  | none => .error .notJson
  | some (v, rest) =>
    match ofJson? v with
    | none => .error .unfitJson
    | some t => if Json.onlySpace rest then .ok t else .error .notJson

/-! ### YAML -/

/-- The key of a table.  A number stands for the key at its place in the order
    `columns`, `rows`, or for none of the two. -/
def tableKey? : Yaml → Option String
  | .string s => some s
  | .int 0 => some "columns"
  | .int 1 => some "rows"
  | .int (.ofNat _) => some ""
  | _ => none

/-- The entries of a table that is written in YAML.  Only those that count have to
    have a JSON form. -/
def tableEntries? : List (Yaml × Yaml) → Option (List (String × Json))
  | [] => some []
  | (k, v) :: rest => do
    let key ← tableKey? k
    let rest ← tableEntries? rest
    if key = "columns" ∨ key = "rows" then
      let v ← v.toJson?
      some ((key, v) :: rest)
    else some rest

/-- **The table of a dataset** that is written in YAML. -/
def ofYaml? : Yaml → Option Table
  | .mapping entries => (tableEntries? entries).bind tableOf?
  | v => v.toJson?.bind ofJson?

/-- Reads a dataset from YAML text. -/
def parseYaml (text : String) : Except Fault Table :=
  match (Yaml.read? text).bind ofYaml? with
  | none => .error .unfitYaml
  | some t => .ok t

/-! ### Files -/

/-- **Reads a dataset** from the text of a file. -/
def parse (path : Path) (text : String) : Except Fault Table :=
  match path.extension with
  | "yaml" => parseYaml text
  | "yml" => parseYaml text
  | "json" => parseJson text
  | "" => parseJson text
  | other => .error (.unsupportedFormat other)

end Dataset

end BlockChart
