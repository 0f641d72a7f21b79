import BlockChart.Json.Printer
import BlockChart.Number.Arithmetic
import BlockChart.Text.Blank
import BlockChart.Value.Basic

namespace BlockChart.Value

/-!
# Coercions

How a value is read where a number, a truth value, an index or a list is wanted,
and how values correspond to JSON.  No coercion fails: a value that is no number
reads as not-a-number.
-/

/-- The number in a text: blank is zero, anything unreadable not-a-number. -/
def numberOfText (s : String) : Float :=
  let t := trimmed s
  if t.isEmpty then 0 else (readFloat? t).getD notANumber

/-- **The number** that a value stands for.  A list of one item stands for what its
    item does. -/
def toNumber : Value → Float
  | .unit => 0
  | .bool b => if b then 1 else 0
  | .num x => x
  | .str s => numberOfText s
  | .list [] => 0
  | .list [v] => v.toNumber
  | .list (_ :: _ :: _) => notANumber

/-- **The truth** of a value: of numbers all but zero and not-a-number, of texts all
    but the empty one, and every list. -/
def truthy : Value → Bool
  | .unit => false
  | .bool b => b
  | .num x => x != 0 && !x.isNaN
  | .str s => !s.isEmpty
  | .list _ => true

/-- The number of characters of a text or of items of a list. -/
def length? : Value → Option Nat
  | .str s => some s.length
  | .list items => some items.length
  | _ => none

/-- The greatest index. -/
def maxIndex : Nat := Nat.pow 2 64 - 1

/-- The index that a number stands for: a whole number not below zero, cut off at
    `maxIndex`. -/
def indexOfNumber? (x : Float) : Option Nat :=
  if 0 ≤ x then
    ((Binary.ofFloat? x).bind Binary.whole?).map (min maxIndex)
  else none

/-- **The index** that a value stands for. -/
def index? (v : Value) : Option Nat :=
  indexOfNumber? v.toNumber

/-- The items of a list, or the value alone. -/
def toList : Value → List Value
  | .list items => items
  | v => [v]

/-- A count as a value. -/
def ofNat (n : Nat) : Value :=
  .num (Float.ofNat n)

/-- A truth value as the number one or zero. -/
def ofFlag (b : Bool) : Value :=
  .num (if b then 1 else 0)

mutual

/-- The value of a JSON value; an object becomes its compact text. -/
def ofJson : Json → Value
  | .null => .unit
  | .bool b => .bool b
  | .int n => .num (Float.ofInt n)
  | .float x => .num x
  | .string s => .str s
  | .array items => .list (ofJsonItems items)
  | .object entries => .str (Json.object entries).compact

/-- The values of the items of a JSON array. -/
def ofJsonItems : List Json → List Value
  | [] => []
  | v :: rest => ofJson v :: ofJsonItems rest

end

mutual

/-- The JSON value of a value; numbers that JSON cannot write become null. -/
def toJson : Value → Json
  | .unit => .null
  | .bool b => .bool b
  | .num x => if x.isFinite then .float x else .null
  | .str s => .string s
  | .list items => .array (toJsonItems items)

/-- The JSON values of the items of a list. -/
def toJsonItems : List Value → List Json
  | [] => []
  | v :: rest => v.toJson :: toJsonItems rest

end

end BlockChart.Value
