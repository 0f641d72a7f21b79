import BlockChart.Evaluation.Meaning
import BlockChart.Value.Operator

namespace BlockChart.Step

/-!
# Expressions

What each expression does, given the meanings of its inputs.
-/

/-- The numbers below `n` as a list. -/
def ordinals (n : Nat) : Value :=
  .list ((List.range n).map Value.ofNat)

/-- The width of what the current context shows. -/
def width (f : FrameId) : Action Value := do
  let c ← Action.top f
  return .num (← Action.bounds c).width

/-- The height of what the current context shows. -/
def height (f : FrameId) : Action Value := do
  let c ← Action.top f
  return .num (← Action.bounds c).height

/-- The number of characters or items of a value, zero for all other values. -/
def count (value : Slot) (f : FrameId) : Action Value := do
  let v ← value.required "count.value" f
  return Value.ofNat (v.length?.getD 0)

/-- A cell of the table. -/
def cell (row column : Slot) (f : FrameId) : Action Value := do
  let r ← row.required "cell.row" f
  let c ← column.required "cell.column" f
  Action.readScopes (·.cell f r c)

/-- The indices of the rows. -/
def rows (f : FrameId) : Action Value := do
  return ordinals (← Action.table f).rows.length

/-- The indices of the columns. -/
def columns (f : FrameId) : Action Value := do
  return ordinals (← Action.table f).columns.length

/-- The name of a column. -/
def columnName (index : Slot) (f : FrameId) : Action Value := do
  let v ← index.required "columnName.index" f
  let names := (← Action.table f).columns
  match v.index?.bind fun i => names[i]? with
  | some name => return .str name
  | none => .fail (.indexOutOfRange "column" v.text names.length)

/-- An operator on two operands; an unknown operator gives the unit. -/
def binary (x y : Slot) (operator : String) (f : FrameId) : Action Value := do
  let a ← x.operand f
  let b ← y.operand f
  return (BinaryOperator.applyNamed? operator a b).getD .unit

/-- The numbers in a column, row by row; the first row is number `r`. -/
def columnNumbers (column : Nat) (r : Nat) : List (List Value) → Except Fault (List Float)
  | [] => .ok []
  | row :: rest =>
    match row[column]? with
    | some v => (columnNumbers column (r + 1) rest).map (v.toNumber :: ·)
    | none =>
      .error (.indexOutOfRange "column" (toString column ++ " (row " ++ toString r ++ ")") row.length)

/-- An aggregate over a column of a table. -/
def aggregate (t : Table) (column : Value) (op : Aggregate) : Except Fault Value := do
  let i ← Scopes.columnOf t column
  match ← columnNumbers i 0 t.rows with
  | [] => .error (.emptyAggregate op.name)
  | xs => .ok (.num (op.apply xs))

/-- An aggregate over a column; an unknown aggregate gives the unit. -/
def stat (column : Slot) (operator : String) (f : FrameId) : Action Value := do
  let v ← column.required "stat.column" f
  match Aggregate.ofName? operator with
  | none => return .unit
  | some op => Action.readScopes fun s => do aggregate (← s.table f) v op

end BlockChart.Step
