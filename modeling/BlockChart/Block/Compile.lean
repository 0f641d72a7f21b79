import BlockChart.Block.Reader
import BlockChart.Geometry.Anchor
import BlockChart.Program.Basic
import BlockChart.Theme

namespace BlockChart

/-!
# From blocks to programs

`Block.compile` turns a block and everything reachable from it into a program.  The
fields and inputs of a block are taken in the order of its kind, and the first fault
is the answer.

The blocks plugged into a block are compiled first; `Pieces` holds what came of
them, so that a kind only picks its parts in order.
-/

/-- A block with what its inputs and the block below it compile to. -/
structure Pieces where
  kind : String
  fields : List (String × Json)
  inputs : List (String × Except Fault Program)
  next : Except Fault Program
  disabled : Bool

namespace Pieces

/-- The text of a field that the kind requires. -/
def field (p : Pieces) (name : String) : Except Fault String :=
  match (lookupEntry name p.fields).bind fieldText? with
  | some s => .ok s
  | none => .error (.missingField p.kind name)

/-- What is plugged into an input. -/
def input (p : Pieces) (name : String) : Except Fault Program :=
  (lookupEntry name p.inputs).getD (.ok .nothing)

/-- The body of `forEach`, `rotate` and `scale`: the input `child` if something is
    plugged into it, else the input `next`. -/
def body (p : Pieces) : Except Fault Program :=
  match lookupEntry "child" p.inputs with
  | some r => r
  | none => p.input "next"

/-- The paint of a `color` block. -/
def paint (p : Pieces) : Except Fault Paint := do
  let s ← p.field "attribute"
  match Paint.ofName? s with
  | some paint => .ok paint
  | none => .error (.unsupportedPaint s)

/-- The opacity of an `alpha` block. -/
def opacity (p : Pieces) : Except Fault Opacity := do
  let s ← p.field "type"
  match Opacity.ofName? s with
  | some opacity => .ok opacity
  | none => .error (.unsupportedOpacity s)

/-- The anchors of an `align` block. -/
def anchors (p : Pieces) : Except Fault (String × String) := do
  let h ← p.field "horizontal"
  let v ← p.field "vertical"
  if (Anchor.horizontal? h).isSome ∧ (Anchor.vertical? v).isSome then .ok (h, v)
  else .error (.unsupportedAnchor h v)

/-- The node of an operation. -/
def node (p : Pieces) (op : Opcode) : Except Fault Program :=
  let d := p.disabled
  match op with
  | .string => return .string d (← p.field "data")
  | .load => return .load d (← p.field "variable")
  | .store => return .store d (← p.field "variable") (← p.input "value") (← p.next)
  | .count => return .count d (← p.input "value")
  | .cell => return .cell d (← p.input "row") (← p.input "column")
  | .rows => .ok (.rows d)
  | .columns => .ok (.columns d)
  | .columnName => return .columnName d (← p.input "index")
  | .binary => do
    let operator ← p.field "operator"
    return .binary d (← p.input "x") (← p.input "y") operator
  | .stat => return .stat d (← p.input "column") (← p.field "operator")
  | .width => .ok (.width d)
  | .height => .ok (.height d)
  | .align => do
    let (h, v) ← p.anchors
    return .align d h v (← p.input "child") (← p.next)
  | .margin => return .margin d (← p.input "size") (← p.input "child") (← p.next)
  | .color => return .color d (← p.paint) (resolveColor (← p.field "color")) (← p.next)
  | .alpha => return .alpha d (← p.opacity) (← p.input "alpha") (← p.next)
  | .forEach => return .forEach d (← p.input "set") (← p.field "variable") (← p.body) (← p.next)
  | .conditional =>
    return .conditional d (← p.input "condition") (← p.input "child") (← p.next)
  | .translate =>
    return .translate d (← p.input "x") (← p.input "y") (← p.input "child") (← p.next)
  | .rotate => return .rotate d (← p.input "degrees") (← p.body)
  | .scale => return .scale d (← p.input "factor") (← p.body)
  | .circle => return .circle d (← p.input "radius") (← p.input "child") (← p.next)
  | .rect =>
    return .rect d (← p.input "width") (← p.input "height") (← p.input "child") (← p.next)
  | .text => return .text d (← p.input "text") (← p.input "child") (← p.next)

end Pieces

namespace Block

mutual

/-- **Compiles a block** and everything reachable from it. -/
def compile : Block → Except Fault Program
  | b@⟨kind, fields, inputs, next, _, _⟩ =>
    match Opcode.ofName? kind with
    | some op =>
      Pieces.node ⟨kind, fields, compileInputs inputs, compileNext next, b.isDisabled⟩ op
    | none => .error (.unknownOperation kind)

/-- What each input compiles to. -/
def compileInputs : List (String × Block) → List (String × Except Fault Program)
  | [] => []
  | (name, b) :: rest => (name, b.compile) :: compileInputs rest

/-- What the block below compiles to; no block is the absent program. -/
def compileNext : Option Block → Except Fault Program
  | none => .ok .nothing
  | some b => b.compile

end

end Block

/-- **Compiles a workspace**: its first stack is the program. -/
def Workspace.compile (w : Workspace) : Except Fault Program :=
  match w.blocks with
  | [] => .ok .nothing
  | b :: _ => b.compile

end BlockChart
