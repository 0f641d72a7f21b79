import BlockChart.Number.Layout

namespace BlockChart

/-!
# Values

What an expression of a chart program evaluates to, what a variable holds and what
a cell of the table contains.  `Value.text` is how a value appears in the drawing
and in joined text: nothing for the unit, the items of a list joined by commas.
-/

/-- A value of a chart program. -/
inductive Value where
  | unit
  | bool (b : Bool)
  | num (x : Float)
  | str (s : String)
  | list (items : List Value)
  deriving Inhabited, Repr

namespace Value

mutual

/-- **Display text** of a value. -/
def text : Value → String
  | .unit => ""
  | .bool b => if b then "true" else "false"
  | .num x => chartText x
  | .str s => s
  | .list items => ",".intercalate (texts items)

/-- Display texts of the items of a list. -/
def texts : List Value → List String
  | [] => []
  | v :: rest => v.text :: texts rest

end

mutual

/-- Equality item by item; numbers compare as numbers, so not-a-number differs from
    itself and the two zeros are the same. -/
def same : Value → Value → Bool
  | .unit, .unit => true
  | .bool a, .bool b => a == b
  | .num a, .num b => a == b
  | .str a, .str b => a == b
  | .list a, .list b => sameItems a b
  | _, _ => false

/-- Whether lists have the same length and the same items. -/
def sameItems : List Value → List Value → Bool
  | [], [] => true
  | a :: as, b :: bs => a.same b && sameItems as bs
  | _, _ => false

end

end Value

end BlockChart
