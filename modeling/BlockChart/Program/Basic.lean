import BlockChart.Opcode

namespace BlockChart

/-!
# Programs

A program is a chain of nodes: each node is an operation with its inputs, and a
statement may name the node that comes after it.  An empty slot is the program
`nothing`, so the absent program, an unplugged input and the end of a chain are one
and the same.  Every node carries a flag that disables it.

* `Program.opcode?` is the operation of the first node;
* `Program.next` is the chain after the first node;
* `Program.nodes` lists a chain.
-/

/-- What a colour is applied to. -/
inductive Paint where
  | fill | stroke
  deriving Repr, DecidableEq

namespace Paint

/-- The style property. -/
def name : Paint → String
  | fill => "fill"
  | stroke => "stroke"

/-- The paint of a property name. -/
def ofName? (s : String) : Option Paint :=
  [fill, stroke].find? (·.name == s)

end Paint

/-- What an opacity is applied to. -/
inductive Opacity where
  | all | stroke | fill
  deriving Repr, DecidableEq

namespace Opacity

/-- The style property. -/
def name : Opacity → String
  | all => "opacity"
  | stroke => "stroke-opacity"
  | fill => "fill-opacity"

/-- The opacity of a property name. -/
def ofName? (s : String) : Option Opacity :=
  [all, stroke, fill].find? (·.name == s)

end Opacity

/-- **A program.** -/
inductive Program where
  /-- No program: an empty slot. -/
  | nothing
  | string (disabled : Bool) (text : String)
  | load (disabled : Bool) (name : String)
  | width (disabled : Bool)
  | height (disabled : Bool)
  | count (disabled : Bool) (value : Program)
  | cell (disabled : Bool) (row column : Program)
  | rows (disabled : Bool)
  | columns (disabled : Bool)
  | columnName (disabled : Bool) (index : Program)
  | binary (disabled : Bool) (x y : Program) (operator : String)
  | stat (disabled : Bool) (column : Program) (operator : String)
  | store (disabled : Bool) (name : String) (value next : Program)
  | color (disabled : Bool) (paint : Paint) (color : String) (next : Program)
  | alpha (disabled : Bool) (opacity : Opacity) (percent next : Program)
  | forEach (disabled : Bool) (set : Program) (name : String) (child next : Program)
  | conditional (disabled : Bool) (condition child next : Program)
  | translate (disabled : Bool) (x y child next : Program)
  | rotate (disabled : Bool) (degrees child : Program)
  | scale (disabled : Bool) (factor child : Program)
  | align (disabled : Bool) (horizontal vertical : String) (child next : Program)
  | margin (disabled : Bool) (size child next : Program)
  | circle (disabled : Bool) (radius child next : Program)
  | rect (disabled : Bool) (width height child next : Program)
  | text (disabled : Bool) (text child next : Program)
  deriving Repr, DecidableEq

namespace Program

/-- The operation of the first node. -/
def opcode? : Program → Option Opcode
  | nothing => none
  | string .. => some .string
  | load .. => some .load
  | width .. => some .width
  | height .. => some .height
  | count .. => some .count
  | cell .. => some .cell
  | rows .. => some .rows
  | columns .. => some .columns
  | columnName .. => some .columnName
  | binary .. => some .binary
  | stat .. => some .stat
  | store .. => some .store
  | color .. => some .color
  | alpha .. => some .alpha
  | forEach .. => some .forEach
  | conditional .. => some .conditional
  | translate .. => some .translate
  | rotate .. => some .rotate
  | scale .. => some .scale
  | align .. => some .align
  | margin .. => some .margin
  | circle .. => some .circle
  | rect .. => some .rect
  | text .. => some .text

/-- Whether the first node is disabled. -/
def disabled : Program → Bool
  | nothing => false
  | string d .. | load d .. | width d | height d | count d .. | cell d .. | rows d | columns d
  | columnName d .. | binary d .. | stat d .. | store d .. | color d .. | alpha d ..
  | forEach d .. | conditional d .. | translate d .. | rotate d .. | scale d .. | align d ..
  | margin d .. | circle d .. | rect d .. | text d .. => d

/-- The chain after the first node.  Expressions, `rotate` and `scale` end a chain. -/
def next : Program → Program
  | store _ _ _ n | color _ _ _ n | alpha _ _ _ n | forEach _ _ _ _ n | conditional _ _ _ n
  | translate _ _ _ _ n | align _ _ _ _ n | margin _ _ _ n | circle _ _ _ n | rect _ _ _ _ n
  | text _ _ _ n => n
  | _ => nothing

/-- **The nodes of a chain**, each with what follows it. -/
def nodes : Program → List Program
  | nothing => []
  | p@(store _ _ _ n) | p@(color _ _ _ n) | p@(alpha _ _ _ n) | p@(forEach _ _ _ _ n)
  | p@(conditional _ _ _ n) | p@(translate _ _ _ _ n) | p@(align _ _ _ _ n) | p@(margin _ _ _ n)
  | p@(circle _ _ _ n) | p@(rect _ _ _ _ n) | p@(text _ _ _ n) => p :: n.nodes
  | p => [p]

end Program

end BlockChart
