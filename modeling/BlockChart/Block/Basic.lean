import BlockChart.Json.Printer

namespace BlockChart

/-!
# Blocks

The puzzle pieces of the editor.  A block has a kind, fields with plain values,
inputs into which other blocks are plugged, and possibly a block below it.  An input
without a block is the same as no input.
-/

/-- A block of the editor. -/
structure Block where
  kind : String
  fields : List (String × Json)
  inputs : List (String × Block)
  next : Option Block
  enabled : Bool
  disabled : Bool

namespace Block

/-- Whether a block is out of use, by either of its two flags. -/
def isDisabled (b : Block) : Bool :=
  b.disabled || !b.enabled

end Block

/-- The text of a field: texts stand for themselves, a null is no text, and any other
    value is its compact JSON. -/
def fieldText? : Json → Option String
  | .string s => some s
  | .null => none
  | v => some v.compact

end BlockChart
