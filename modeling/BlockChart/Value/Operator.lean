import BlockChart.Value.Comparison

namespace BlockChart

/-!
# Operators

The two-operand operators of the `binary` block and the aggregates of the `stat`
block, each with its name and its meaning.
-/

/-! ### Two operands -/

/-- A two-operand operator, in palette order. -/
inductive BinaryOperator where
  | add | subtract | multiply | divide | join | max | min | remainder
  | equal | unequal | greater | less
  deriving Repr, DecidableEq

namespace BinaryOperator

/-- All operators in palette order. -/
def all : List BinaryOperator :=
  [add, subtract, multiply, divide, join, max, min, remainder, equal, unequal, greater, less]

/-- The name that programs use. -/
def name : BinaryOperator → String
  | add => "+"
  | subtract => "-"
  | multiply => "*"
  | divide => "/"
  | join => "&"
  | max => "max"
  | min => "min"
  | remainder => "%"
  | equal => "=="
  | unequal => "!="
  | greater => ">"
  | less => "<"

/-- The operator of a name. -/
def ofName? (s : String) : Option BinaryOperator :=
  all.find? (·.name == s)

/-- **What an operator computes.**  Of two values neither of which is the greater,
    `max` takes the second and `min` the first. -/
def apply (op : BinaryOperator) (a b : Value) : Value :=
  match op with
  | add => .num (a.toNumber + b.toNumber)
  | subtract => .num (a.toNumber - b.toNumber)
  | multiply => .num (a.toNumber * b.toNumber)
  | divide => .num (a.toNumber / b.toNumber)
  | remainder => .num (BlockChart.remainder a.toNumber b.toNumber)
  | join => .str (a.text ++ b.text)
  | max => if Value.order? a b = some .gt then a else b
  | min => if Value.order? a b = some .gt then b else a
  | equal => Value.ofFlag (Value.looselyEqual a b)
  | unequal => Value.ofFlag (!Value.looselyEqual a b)
  | greater => Value.ofFlag (Value.order? a b = some .gt)
  | less => Value.ofFlag (Value.order? a b = some .lt)

/-- Applies the operator with a name; an unknown name gives nothing. -/
def applyNamed? (name : String) (a b : Value) : Option Value :=
  (ofName? name).map (·.apply a b)

end BinaryOperator

/-! ### Aggregates -/

/-- An aggregate over a column, in palette order. -/
inductive Aggregate where
  | max | min | sum | average | deviation
  deriving Repr, DecidableEq

namespace Aggregate

/-- All aggregates in palette order. -/
def all : List Aggregate :=
  [max, min, sum, average, deviation]

/-- The name that programs use. -/
def name : Aggregate → String
  | max => "max"
  | min => "min"
  | sum => "sum"
  | average => "avg"
  | deviation => "stdev"

/-- The aggregate of a name. -/
def ofName? (s : String) : Option Aggregate :=
  all.find? (·.name == s)

/-- The sum from left to right.  It starts at the negative zero, which adds nothing
    to any number. -/
def total (xs : List Float) : Float :=
  xs.foldl (· + ·) (-0.0)

/-- The arithmetic mean. -/
def mean (xs : List Float) : Float :=
  total xs / Float.ofNat xs.length

/-- **What an aggregate computes** of a column that is not empty.  The deviation is
    the square root of the sum of the squared distances from the mean. -/
def apply (op : Aggregate) (xs : List Float) : Float :=
  match op with
  | max => xs.foldl greatestNumber (-infinity)
  | min => xs.foldl leastNumber infinity
  | sum => total xs
  | average => mean xs
  | deviation =>
    let m := mean xs
    (total (xs.map fun x => (x - m) * (x - m))).sqrt

/-- Applies the aggregate with a name; an unknown name and an empty column give nothing. -/
def applyNamed? (name : String) (xs : List Float) : Option Float :=
  if xs.isEmpty then none else (ofName? name).map (·.apply xs)

end Aggregate

end BlockChart
