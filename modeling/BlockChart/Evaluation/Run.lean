import BlockChart.Evaluation.Expression
import BlockChart.Evaluation.Statement

namespace BlockChart

/-!
# Running programs

`Program.meaningAs?` gives a program its meaning, part by part; an expression, a
`rotate` and a `scale` take no notice of being disabled.  The tags of layout elements are a
parameter, so that one can tell these elements in a drawing; `Program.meaning?` has the
tags that drawings have.

* `Program.eval` runs the first node of a program alone;
* `Program.run` runs a whole program in the root frame.
-/

namespace Program

/-- **The meaning of a program** that draws with given tags, under a limit on nesting. -/
def meaningAs? (tags : LayoutTags) (limit : Nat) : Program → Slot
  | nothing => none
  | string _ s => some (.expression limit fun _ => pure (.str s))
  | load _ name => some (.expression limit fun f => Action.lookup f name)
  | width _ => some (.expression limit Step.width)
  | height _ => some (.expression limit Step.height)
  | count _ value => some (.expression limit (Step.count (value.meaningAs? tags limit)))
  | cell _ row column =>
    some (.expression limit (Step.cell (row.meaningAs? tags limit) (column.meaningAs? tags limit)))
  | rows _ => some (.expression limit Step.rows)
  | columns _ => some (.expression limit Step.columns)
  | columnName _ index =>
    some (.expression limit (Step.columnName (index.meaningAs? tags limit)))
  | binary _ x y operator =>
    some (.expression limit
      (Step.binary (x.meaningAs? tags limit) (y.meaningAs? tags limit) operator))
  | stat _ column operator =>
    some (.expression limit (Step.stat (column.meaningAs? tags limit) operator))
  | store d name value next =>
    some (.statement limit d (Step.store name (value.meaningAs? tags limit))
      (next.meaningAs? tags limit))
  | color d paint c next =>
    some (.statement limit d (Step.color paint c) (next.meaningAs? tags limit))
  | alpha d opacity percent next =>
    some (.statement limit d (Step.alpha opacity (percent.meaningAs? tags limit))
      (next.meaningAs? tags limit))
  | forEach d set name child next =>
    some (.statement limit d
      (Step.forEach (set.meaningAs? tags limit) name (child.meaningAs? tags limit))
      (next.meaningAs? tags limit))
  | conditional d condition child next =>
    some (.statement limit d
      (Step.conditional (condition.meaningAs? tags limit) (child.meaningAs? tags limit))
      (next.meaningAs? tags limit))
  | translate d x y child next =>
    some (.statement limit d
      (Step.translate (x.meaningAs? tags limit) (y.meaningAs? tags limit)
        (child.meaningAs? tags limit)) (next.meaningAs? tags limit))
  | rotate _ degrees child =>
    some (.statement limit false
      (Step.rotate (degrees.meaningAs? tags limit) (child.meaningAs? tags limit)) none)
  | scale _ factor child =>
    some (.statement limit false
      (Step.scale (factor.meaningAs? tags limit) (child.meaningAs? tags limit)) none)
  | align d horizontal vertical child next =>
    some (.statement limit d
      (Step.align tags horizontal vertical (child.meaningAs? tags limit))
      (next.meaningAs? tags limit))
  | margin d size child next =>
    some (.statement limit d
      (Step.margin tags (size.meaningAs? tags limit) (child.meaningAs? tags limit))
      (next.meaningAs? tags limit))
  | circle d radius child next =>
    some (.statement limit d
      (Step.circle (radius.meaningAs? tags limit) (child.meaningAs? tags limit))
      (next.meaningAs? tags limit))
  | rect d w h child next =>
    some (.statement limit d
      (Step.rect (w.meaningAs? tags limit) (h.meaningAs? tags limit)
        (child.meaningAs? tags limit)) (next.meaningAs? tags limit))
  | text d content child next =>
    some (.statement limit d
      (Step.text (content.meaningAs? tags limit) (child.meaningAs? tags limit))
      (next.meaningAs? tags limit))

/-- The meaning of a program that draws with the usual tags. -/
def meaning? (limit : Nat) (p : Program) : Slot :=
  p.meaningAs? .plain limit

/-- **Runs the first node** of a program in a frame, without what follows it. -/
def eval (limit : Nat) (p : Program) (f : FrameId) : Action Value :=
  (p.meaning? limit).required "program" f

/-- Runs a program in a frame: its first node and the chain after it.  The absent
    program gives the unit. -/
def runChain (limit : Nat) (p : Program) (f : FrameId) : Action Value :=
  match p.meaning? limit with
  | some m => m.chain f
  | none => pure .unit

/-- Runs a program in the root frame, and draws with given tags; there must be a program. -/
def runAs (tags : LayoutTags) (limit : Nat) (p : Program) : Action Value :=
  match p.meaningAs? tags limit with
  | some m => m.chain Scopes.root
  | none => .fail (.missingPiece "program")

/-- **Runs a program** in the root frame. -/
def run (limit : Nat) (p : Program) : Action Value :=
  p.runAs .plain limit

end Program

end BlockChart
