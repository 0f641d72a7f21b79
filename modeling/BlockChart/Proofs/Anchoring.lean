import Mathlib
import BlockChart.Proofs.ExactBoxes
import BlockChart.Geometry.Anchor

namespace BlockChart.Anchor

/-!
# Where an anchored box comes to lie

The offset of `Anchor.offset` depends on the size of the parent, and on the place and the size of
the child; where the parent is plays no part.  So the child is brought to an end or to the
centre of the surroundings that the parent would have at the origin, and it meets the anchor
of the parent itself only along an axis on which the parent starts at zero.  The group of a
circle, for one, does not.

* `Meets` — what an anchor asks for along one axis, `surroundings` — what is reckoned with;
* `offset_anchors` — where the child comes to lie, in exact arithmetic.
-/

variable {K : Type} [Field K] [LinearOrder K] [Angular K]

/-- **An interval meets an anchor of another one**: the two have the same near end, the same
    centre or the same far end. -/
def Meets (anchor : Anchor) (outerStart outer innerStart inner : K) : Prop :=
  match anchor with
  | near => innerStart = outerStart
  | middle => innerStart + inner / 2 = outerStart + outer / 2
  | far => innerStart + inner = outerStart + outer

/-- The box of a parent, moved to the origin. -/
def surroundings (parent : Box K) : Box K :=
  ⟨0, 0, parent.width, parent.height⟩

variable [IsStrictOrderedRing K]

/-- A shift brings the inner interval to the anchor of an outer one that starts at zero. -/
theorem meets_shift (anchor : Anchor) (outer inner start : K) :
    anchor.Meets 0 outer (start + shift (some anchor) outer inner start) inner := by
  have htwo : (2.0 : K) = 2 := by norm_num
  -- in each case the shift cancels the start of the inner interval
  cases anchor with
  | near =>
    show start + -start = 0
    ring
  | middle =>
    show start + ((outer - inner) / 2.0 - start) + inner / 2 = 0 + outer / 2
    rw [htwo]
    ring
  | far =>
    show start + (outer - inner - start) + inner = 0 + outer
    ring

/-- At the anchor of an interval that starts at zero, one is at that of another interval of
    the same length only if this starts at zero too. -/
theorem Meets.iff_start {anchor : Anchor} {outer innerStart inner : K}
    (h : anchor.Meets 0 outer innerStart inner) (outerStart : K) :
    anchor.Meets outerStart outer innerStart inner ↔ outerStart = 0 := by
  cases anchor with
  | near =>
    obtain rfl : innerStart = 0 := h
    exact eq_comm
  | middle =>
    have hcentre : innerStart + inner / 2 = 0 + outer / 2 := h
    show innerStart + inner / 2 = outerStart + outer / 2 ↔ outerStart = 0
    rw [hcentre, add_left_inj, eq_comm]
  | far =>
    have hend : innerStart + inner = 0 + outer := h
    show innerStart + inner = outerStart + outer ↔ outerStart = 0
    rw [hend, add_left_inj, eq_comm]

/-- A shorter interval that meets an anchor lies inside. -/
theorem Meets.inside {anchor : Anchor} {outer innerStart inner : K}
    (h : anchor.Meets 0 outer innerStart inner) (hle : inner ≤ outer) :
    0 ≤ innerStart ∧ innerStart + inner ≤ 0 + outer := by
  cases anchor with
  | near =>
    obtain rfl : innerStart = 0 := h
    constructor <;> linarith
  | middle =>
    have hcentre : innerStart + inner / 2 = 0 + outer / 2 := h
    constructor <;> linarith
  | far =>
    have hend : innerStart + inner = 0 + outer := h
    constructor <;> linarith

/-- **Where an anchored box comes to lie.**  The offset brings the child to the named ends or
    centres of the surroundings of the parent at the origin, and a child that is no larger than
    the parent lies inside those.  It meets the anchor of the parent itself along an axis
    exactly if the parent starts at zero on that axis. -/
theorem offset_anchors (horizontal vertical : String) (a b : Anchor)
    (ha : horizontal? horizontal = some a) (hb : vertical? vertical = some b)
    (parent child : Box K) (hchild : child.Proper) :
    let t := offset horizontal vertical parent child
    (a.Meets 0 parent.width (child.x + t.1) child.width ∧
      b.Meets 0 parent.height (child.y + t.2) child.height) ∧
    (a.Meets parent.x parent.width (child.x + t.1) child.width ↔ parent.x = 0) ∧
    (b.Meets parent.y parent.height (child.y + t.2) child.height ↔ parent.y = 0) ∧
    (child.width ≤ parent.width → child.height ≤ parent.height →
      ((Transform.translate t.1 t.2).mapBox child).points ⊆ (surroundings parent).points) := by
  intro t
  have hx : a.Meets 0 parent.width (child.x + t.1) child.width := by
    have hshift : t.1 = shift (some a) parent.width child.width child.x := by rw [← ha]; rfl
    rw [hshift]
    exact meets_shift a parent.width child.width child.x
  have hy : b.Meets 0 parent.height (child.y + t.2) child.height := by
    have hshift : t.2 = shift (some b) parent.height child.height child.y := by rw [← hb]; rfl
    rw [hshift]
    exact meets_shift b parent.height child.height child.y
  refine ⟨⟨hx, hy⟩, hx.iff_start parent.x, hy.iff_start parent.y, fun hwidth hheight => ?_⟩
  -- a shifted proper box has the sizes that it had
  let placed : Box K := ⟨child.x + t.1, child.y + t.2, child.width, child.height⟩
  have hplaced : placed.Proper := ⟨hchild.width, hchild.height⟩
  rw [Transform.mapBox_translate hchild]
  exact (Box.points_subset_iff hplaced).mpr ⟨hx.inside hwidth, hy.inside hheight⟩

/-- The middle of a circle of radius 10, whose box starts at -10 on both axes: a square of side
    4 is brought to the middle of the box from 0 to 20, and not to that of the circle. -/
theorem offset_anchors_circle :
    let circle : Box ℝ := ⟨-10, -10, 20, 20⟩
    let square : Box ℝ := ⟨0, 0, 4, 4⟩
    let t := offset "middle" "middle" circle square
    square.Proper ∧ middle.Meets 0 20 (0 + t.1) 4 ∧ ¬ middle.Meets (-10) 20 (0 + t.1) 4 := by
  intro circle square t
  have hproper : square.Proper := ⟨by norm_num, by norm_num⟩
  obtain ⟨⟨hmeets, -⟩, hiff, -, -⟩ :=
    offset_anchors "middle" "middle" middle middle rfl rfl circle square hproper
  exact ⟨hproper, hmeets, fun h => absurd (hiff.mp h) (by norm_num)⟩

end BlockChart.Anchor
