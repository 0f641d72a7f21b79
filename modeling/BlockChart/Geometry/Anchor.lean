import BlockChart.Geometry.Box

namespace BlockChart

/-!
# Anchors

Where a box is put along one axis of its surroundings: at the near end, at the far
end or in the middle.  A name that is no anchor of an axis leaves that axis alone.
-/

/-- A place along an axis. -/
inductive Anchor where
  | near | middle | far
  deriving Repr, DecidableEq

namespace Anchor

/-- The anchor of a name on the horizontal axis. -/
def horizontal? : String → Option Anchor
  | "left" => some near
  | "middle" => some middle
  | "right" => some far
  | _ => none

/-- The anchor of a name on the vertical axis. -/
def vertical? : String → Option Anchor
  | "top" => some near
  | "middle" => some middle
  | "bottom" => some far
  | _ => none

variable {α : Type} [Scalar α]

/-- The shift along an axis for an inner box that starts at `start`. -/
def shift (anchor : Option Anchor) (outer inner start : α) : α :=
  match anchor with
  | some near => -start
  | some far => outer - inner - start
  | some middle => (outer - inner) / 2.0 - start
  | none => 0.0

/-- **The offset** that anchors a child box in a parent box. -/
def offset (horizontal vertical : String) (parent child : Box α) : α × α :=
  (shift (horizontal? horizontal) parent.width child.width child.x,
    shift (vertical? vertical) parent.height child.height child.y)

end Anchor

end BlockChart
