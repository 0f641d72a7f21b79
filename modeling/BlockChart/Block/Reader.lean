import BlockChart.Block.Basic
import BlockChart.Fault
import BlockChart.Json.Parser

namespace BlockChart

/-!
# Reading workspaces

The editor saves a workspace as JSON: a list of stacks of blocks, of which the first
is the program, or a single block.  Keys that are not known are ignored.  Each kind
of record may also be given as the array of its parts in order:

* a block: kind, fields, inputs, next, enabled, disabled;
* a connection: the block that is plugged into it, which may be missing;
* a workspace and its list of blocks: the one part that they have.

Parts left out at the end take their defaults.  The whole workspace is checked, also
the stacks that are not compiled.
-/

namespace Block

/-- A flag, with its default if it is left out. -/
def readFlag? (default : Bool) : Option Json → Option Bool
  | none => some default
  | some (.bool b) => some b
  | some _ => none

/-- The fields, none if they are left out. -/
def readFields? : Option Json → Option (List (String × Json))
  | none => some []
  | some (.object entries) => some entries
  | some _ => none

/-- A block out of its parts. -/
def assemble? (kind : Option Json) (fields : Option Json) (inputs : Option (List (String × Block)))
    (next : Option (Option Block)) (enabled disabled : Option Json) : Option Block :=
  match kind with
  | some (.string kind) => do
    let fields ← readFields? fields
    let inputs ← inputs
    let next ← next
    let enabled ← readFlag? true enabled
    let disabled ← readFlag? false disabled
    some { kind, fields, inputs, next, enabled, disabled }
  | _ => none

mutual

/-- A block, or null for none. -/
def readPlug? : Json → Option (Option Block)
  | .null => some none
  | .object entries =>
    (assemble? (lookupEntry "type" entries) (lookupEntry "fields" entries)
      (readInputsIn? entries) (readNextIn? entries)
      (lookupEntry "enabled" entries) (lookupEntry "disabled" entries)).map some
  | .array [k] => (assemble? (some k) none (some []) (some none) none none).map some
  | .array [k, f] => (assemble? (some k) (some f) (some []) (some none) none none).map some
  | .array [k, f, i] =>
    (assemble? (some k) (some f) (readInputs? i) (some none) none none).map some
  | .array [k, f, i, n] =>
    (assemble? (some k) (some f) (readInputs? i) (readConnection? n) none none).map some
  | .array [k, f, i, n, e] =>
    (assemble? (some k) (some f) (readInputs? i) (readConnection? n) (some e) none).map some
  | .array [k, f, i, n, e, d] =>
    (assemble? (some k) (some f) (readInputs? i) (readConnection? n) (some e) (some d)).map some
  | _ => none

/-- A connection, or null for none: the block plugged into it. -/
def readConnection? : Json → Option (Option Block)
  | .null => some none
  | .object entries => readPlugIn? entries
  | .array [] => some none
  | .array [v] => readPlug? v
  | _ => none

/-- The block of a connection, from its entries. -/
def readPlugIn? : List (String × Json) → Option (Option Block)
  | [] => some none
  | (k, v) :: rest => if k = "block" then readPlug? v else readPlugIn? rest

/-- The inputs with a block, from an object of connections. -/
def readInputs? : Json → Option (List (String × Block))
  | .object entries => readConnections? entries
  | _ => none

/-- The inputs with a block; a connection may not be null. -/
def readConnections? : List (String × Json) → Option (List (String × Block))
  | [] => some []
  | (_, .null) :: _ => none
  | (k, v) :: rest => do
    let plug ← readConnection? v
    let inputs ← readConnections? rest
    match plug with
    | some b => some ((k, b) :: inputs)
    | none => some inputs

/-- The inputs of a block, from its entries. -/
def readInputsIn? : List (String × Json) → Option (List (String × Block))
  | [] => some []
  | (k, v) :: rest => if k = "inputs" then readInputs? v else readInputsIn? rest

/-- The block below a block, from its entries. -/
def readNextIn? : List (String × Json) → Option (Option Block)
  | [] => some none
  | (k, v) :: rest => if k = "next" then readConnection? v else readNextIn? rest

end

/-- A block that must be there. -/
def read? (v : Json) : Option Block :=
  (readPlug? v).join

end Block

/-- The stacks of a workspace, by their top blocks. -/
structure Workspace where
  blocks : List Block

namespace Workspace

/-- The list of blocks of a workspace. -/
def readBlocks? : Json → Option (List Block)
  | .object entries =>
    match lookupEntry "blocks" entries with
    | none => some []
    | some (.array items) => items.mapM Block.read?
    | some _ => none
  | .array [] => some []
  | .array [.array items] => items.mapM Block.read?
  | _ => none

/-- **Reads a workspace**: a value with a `type` is a single block. -/
def ofJson? (v : Json) : Option Workspace :=
  match v.get? "type" with
  | some _ => (Block.read? v).map fun b => ⟨[b]⟩
  | none =>
    let blocks := match v with
      | .array [blocks] => some blocks
      | v => v.get? "blocks"
    (blocks.bind readBlocks?).map Workspace.mk

/-- **Reads a workspace** from JSON text. -/
def parse (text : String) : Except Fault Workspace :=
  match Json.read? text with
  | none => .error .notJson
  | some v =>
    match ofJson? v with
    | some w => .ok w
    | none => .error .unfitJson

end Workspace

end BlockChart
