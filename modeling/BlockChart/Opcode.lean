import BlockChart.Text.Distance

namespace BlockChart

/-!
# Operations

The operations that blocks and programs are made of, with the names that they go by
and the categories that the palette files them under.  `Opcode.suggest?` finds the
operation that a misspelt name may have meant.
-/

/-- A category of the palette. -/
inductive Category where
  | value | layout | style | logic | transform | shape
  deriving Repr, DecidableEq

namespace Category

/-- The label in the palette. -/
def label : Category → String
  | value => "Value"
  | layout => "Lay-out"
  | style => "Style"
  | logic => "Logic"
  | transform => "Transform"
  | shape => "Shape"

/-- All categories, sorted by label. -/
def all : List Category :=
  [layout, logic, shape, style, transform, value]

end Category

/-- An operation, in catalog order. -/
inductive Opcode where
  | string | load | store | count | cell | rows | columns | columnName | binary | stat
  | width | height | align | margin
  | color | alpha
  | forEach | conditional
  | translate | rotate | scale
  | circle | rect | text
  deriving Repr, DecidableEq

namespace Opcode

/-- All operations in catalog order. -/
def all : List Opcode :=
  [string, load, store, count, cell, rows, columns, columnName, binary, stat,
    width, height, align, margin, color, alpha, forEach, conditional,
    translate, rotate, scale, circle, rect, text]

/-- The name in blocks and programs. -/
def name : Opcode → String
  | string => "string"
  | load => "load"
  | store => "store"
  | count => "count"
  | cell => "cell"
  | rows => "rows"
  | columns => "columns"
  | columnName => "columnName"
  | binary => "binary"
  | stat => "stat"
  | width => "width"
  | height => "height"
  | align => "align"
  | margin => "margin"
  | color => "color"
  | alpha => "alpha"
  | forEach => "forEach"
  | conditional => "conditional"
  | translate => "translate"
  | rotate => "rotate"
  | scale => "scale"
  | circle => "circle"
  | rect => "rect"
  | text => "text"

/-- The operation of a name. -/
def ofName? (s : String) : Option Opcode :=
  all.find? (·.name == s)

/-- The category in the palette. -/
def category : Opcode → Category
  | string | load | store | count | cell | rows | columns | columnName | binary | stat => .value
  | width | height | align | margin => .layout
  | color | alpha => .style
  | forEach | conditional => .logic
  | translate | rotate | scale => .transform
  | circle | rect | text => .shape

/-- Whether the operation is a statement; the others are expressions. -/
def isStatement : Opcode → Bool
  | store | color | alpha | forEach | conditional | translate | rotate | scale | align | margin
  | circle | rect | text => true
  | _ => false

/-- **The palette**: the labels of the categories with their operations. -/
def palette : List (String × List Opcode) :=
  Category.all.map fun c => (c.label, all.filter (·.category = c))

/-- The operation nearest to a name among `candidates`, the first of several, with
    its distance. -/
def nearest? (name : String) : List Opcode → Option (Opcode × Nat)
  | [] => none
  | op :: rest =>
    let d := editDistance name op.name
    match nearest? name rest with
    | none => some (op, d)
    | some (other, e) => if e < d then some (other, e) else some (op, d)

/-- **The suggestion** for an unknown name: the nearest operation if it is at most
    two edits away. -/
def suggest? (name : String) : Option Opcode :=
  match nearest? name all with
  | some (op, d) => if d ≤ 2 then some op else none
  | none => none

end Opcode

end BlockChart
