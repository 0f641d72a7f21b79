import BlockChart.Geometry.Scalar

namespace BlockChart

/-!
# Boxes

Axis-parallel boxes by corner and size, the box around two boxes and the box around
four points.
-/

/-- A box: the corner with the least coordinates, and the extent from there. -/
structure Box (α : Type) where
  x : α
  y : α
  width : α
  height : α
  deriving Repr, DecidableEq

/-- A point. -/
abbrev Point (α : Type) := α × α

namespace Box

variable {α : Type} [Scalar α]

/-- The box of no extent at the origin. -/
def zero : Box α := ⟨0.0, 0.0, 0.0, 0.0⟩

/-- The box between two corners. -/
def between (x₀ y₀ x₁ y₁ : α) : Box α :=
  ⟨x₀, y₀, x₁ - x₀, y₁ - y₀⟩

/-- The far end of a box along the first axis. -/
def right (b : Box α) : α := b.x + b.width

/-- The far end of a box along the second axis. -/
def bottom (b : Box α) : α := b.y + b.height

/-- **The box around two boxes.** -/
def union (a b : Box α) : Box α :=
  between (Scalar.least a.x b.x) (Scalar.least a.y b.y)
    (Scalar.greatest a.right b.right) (Scalar.greatest a.bottom b.bottom)

/-- The least of four numbers; not-a-number counts as the top of the scale. -/
def leastOf (a b c d : α) : α :=
  Scalar.least (Scalar.least (Scalar.least (Scalar.orTop a) b) c) d

/-- The greatest of four numbers; not-a-number counts as the bottom of the scale. -/
def greatestOf (a b c d : α) : α :=
  Scalar.greatest (Scalar.greatest (Scalar.greatest (Scalar.orBottom a) b) c) d

/-- **The box around four points.** -/
def around (p q r s : Point α) : Box α :=
  between (leastOf p.1 q.1 r.1 s.1) (leastOf p.2 q.2 r.2 s.2)
    (greatestOf p.1 q.1 r.1 s.1) (greatestOf p.2 q.2 r.2 s.2)

/-- The box around the images of the four corners under a map of points. -/
def image (f : Point α → Point α) (b : Box α) : Box α :=
  around (f (b.x, b.y)) (f (b.right, b.y)) (f (b.right, b.bottom)) (f (b.x, b.bottom))

end Box

end BlockChart
