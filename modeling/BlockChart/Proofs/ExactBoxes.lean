import Mathlib
import BlockChart.Geometry.Transform

namespace BlockChart

/-!
# Boxes in exact arithmetic

Over an ordered field nothing is rounded, and a box is a set of points: those between its
corners.  The box around two boxes is then the least one that has the points of both, and a
transform that does not turn takes the least box around some points to the least box around
their images.

* `exactScalar` — every ordered field has the operations that boxes need;
* `Box.points`, `Box.Proper` — the points of a box, and boxes whose sizes are not negative;
* `Box.IsHull` — the least box around some points; `IsHull.unique`, `IsHull.union` and
  `IsHull.map` are its laws;
* `Transform.Straight` — shifts and scalings, by any factor.
-/

/-- How a field reads angles: sine and cosine of a number of degrees.  Boxes that are not
    turned do not depend on it. -/
class Angular (K : Type) where
  sinCos : K → K × K

noncomputable instance : Angular ℝ where
  sinCos degrees := (Real.sin (degrees * (Real.pi / 180)), Real.cos (degrees * (Real.pi / 180)))

instance exactScalar {K : Type} [Field K] [LinearOrder K] [Angular K] : Scalar K where
  add := (· + ·)
  sub := (· - ·)
  mul := (· * ·)
  div := (· / ·)
  neg := (- ·)
  ofScientific := OfScientific.ofScientific
  ofCount := Nat.cast
  least := min
  greatest := max
  orTop := id
  orBottom := id
  sinCos := Angular.sinCos

/-- A map of one coordinate that keeps or reverses the order. -/
def KeepsBetween {α : Type} [LinearOrder α] (f : α → α) : Prop :=
  StrictMono f ∨ StrictAnti f

/-- Being between two numbers is kept by a map that keeps or reverses the order. -/
theorem KeepsBetween.between_iff {α : Type} [LinearOrder α] {f : α → α} (hf : KeepsBetween f)
    {u v w : α} (huv : u ≤ v) :
    (min (f u) (f v) ≤ f w ∧ f w ≤ max (f u) (f v)) ↔ (u ≤ w ∧ w ≤ v) := by
  rcases hf with hmono | hanti
  · have hle := hmono.monotone huv
    rw [min_eq_left hle, max_eq_right hle, hmono.le_iff_le, hmono.le_iff_le]
  · have hle := hanti.antitone huv
    rw [min_eq_right hle, max_eq_left hle, hanti.le_iff_ge, hanti.le_iff_ge, and_comm]

variable {K : Type} [Field K] [LinearOrder K] [Angular K]

namespace Box

/-! ### Points -/

/-- **The points of a box.** -/
def points (b : Box K) : Set (Point K) :=
  {p | (b.x ≤ p.1 ∧ p.1 ≤ b.x + b.width) ∧ (b.y ≤ p.2 ∧ p.2 ≤ b.y + b.height)}

/-- A box whose sizes are not negative. -/
structure Proper (b : Box K) : Prop where
  width : 0 ≤ b.width
  height : 0 ≤ b.height

@[simp] theorem right_between (x₀ y₀ x₁ y₁ : K) : (between x₀ y₀ x₁ y₁).right = x₁ :=
  add_sub_cancel x₀ x₁

@[simp] theorem bottom_between (x₀ y₀ x₁ y₁ : K) : (between x₀ y₀ x₁ y₁).bottom = y₁ :=
  add_sub_cancel y₀ y₁

@[simp] theorem x_between (x₀ y₀ x₁ y₁ : K) : (between x₀ y₀ x₁ y₁).x = x₀ := rfl

@[simp] theorem y_between (x₀ y₀ x₁ y₁ : K) : (between x₀ y₀ x₁ y₁).y = y₀ := rfl

variable {a b : Box K} {p : Point K} {P Q : Set (Point K)}

/-- The points of a box, by its far ends. -/
theorem mem_points :
    p ∈ b.points ↔ (b.x ≤ p.1 ∧ p.1 ≤ b.right) ∧ (b.y ≤ p.2 ∧ p.2 ≤ b.bottom) :=
  Iff.rfl

/-- The points of the box around two boxes. -/
theorem mem_union_points :
    p ∈ (a.union b).points ↔
      (min a.x b.x ≤ p.1 ∧ p.1 ≤ max a.right b.right) ∧
        (min a.y b.y ≤ p.2 ∧ p.2 ≤ max a.bottom b.bottom) := by
  rw [union, mem_points, right_between, bottom_between]
  rfl

/-- The image of a box under a map that moves each coordinate by itself. -/
theorem image_coordinates (f g : K → K) (b : Box K) :
    b.image (fun p => (f p.1, g p.2)) =
      between (min (f b.x) (f b.right)) (min (g b.y) (g b.bottom))
        (max (f b.x) (f b.right)) (max (g b.y) (g b.bottom)) := by
  -- the first coordinates of the corners come as `u, v, v, u`, the second ones as `u, u, v, v`
  have hleast : ∀ u v : K, leastOf u v v u = min u v ∧ leastOf u u v v = min u v := by
    intro u v
    show min (min (min u v) v) u = min u v ∧ min (min (min u u) v) v = min u v
    simp
  have hgreatest : ∀ u v : K, greatestOf u v v u = max u v ∧ greatestOf u u v v = max u v := by
    intro u v
    show max (max (max u v) v) u = max u v ∧ max (max (max u u) v) v = max u v
    simp
  simp only [image, around, hleast, hgreatest]

/-- **The least box around some points**: it has all of them, and every box that does has all
    its points. -/
structure IsHull (P : Set (Point K)) (b : Box K) : Prop where
  covers : P ⊆ b.points
  least : ∀ b' : Box K, P ⊆ b'.points → b.points ⊆ b'.points

/-- A box is the least one around its own points. -/
theorem isHull_points (b : Box K) : IsHull b.points b :=
  ⟨subset_rfl, fun _ h => h⟩

variable [IsStrictOrderedRing K]

theorem Proper.le_right (h : b.Proper) : b.x ≤ b.right :=
  le_add_of_nonneg_right h.width

theorem Proper.le_bottom (h : b.Proper) : b.y ≤ b.bottom :=
  le_add_of_nonneg_right h.height

/-- Only proper boxes have points. -/
theorem proper_of_mem (h : p ∈ b.points) : b.Proper := by
  obtain ⟨⟨hx, hright⟩, hy, hbottom⟩ := h
  constructor
  · exact nonneg_of_le_add_right (hx.trans hright)
  · exact nonneg_of_le_add_right (hy.trans hbottom)

/-- A proper box has the corner with the least coordinates and the one opposite. -/
theorem Proper.corners_mem (h : b.Proper) :
    (b.x, b.y) ∈ b.points ∧ (b.right, b.bottom) ∈ b.points :=
  ⟨⟨⟨le_rfl, h.le_right⟩, le_rfl, h.le_bottom⟩, ⟨h.le_right, le_rfl⟩, h.le_bottom, le_rfl⟩

/-- **Inclusion by coordinates.** -/
theorem points_subset_iff (h : a.Proper) :
    a.points ⊆ b.points ↔
      (b.x ≤ a.x ∧ a.right ≤ b.right) ∧ (b.y ≤ a.y ∧ a.bottom ≤ b.bottom) := by
  constructor
  · intro hsub
    obtain ⟨hnear, hfar⟩ := h.corners_mem
    obtain ⟨⟨hx, -⟩, hy, -⟩ := hsub hnear
    obtain ⟨⟨-, hright⟩, -, hbottom⟩ := hsub hfar
    exact ⟨⟨hx, hright⟩, hy, hbottom⟩
  · rintro ⟨⟨hx, hright⟩, hy, hbottom⟩ p ⟨⟨hpx, hpright⟩, hpy, hpbottom⟩
    exact ⟨⟨hx.trans hpx, hpright.trans hright⟩, hy.trans hpy, hpbottom.trans hbottom⟩

/-- A proper box is told by its points. -/
theorem Proper.eq_of_points_eq (ha : a.Proper) (hb : b.Proper) (h : a.points = b.points) :
    a = b := by
  obtain ⟨⟨hx, hright⟩, hy, hbottom⟩ := (points_subset_iff ha).mp h.subset
  obtain ⟨⟨hx', hright'⟩, hy', hbottom'⟩ := (points_subset_iff hb).mp h.symm.subset
  -- the two starts agree, so equal ends mean equal sizes
  have hleft := le_antisymm hx' hx
  have htop := le_antisymm hy' hy
  have hwidth : a.x + a.width = b.x + b.width := le_antisymm hright hright'
  have hheight : a.y + a.height = b.y + b.height := le_antisymm hbottom hbottom'
  rw [hleft] at hwidth
  rw [htop] at hheight
  cases a
  cases b
  simp_all

/-! ### Least boxes -/

namespace IsHull

/-- Around something there is a proper box only. -/
theorem proper (h : IsHull P b) (hP : P.Nonempty) : b.Proper := by
  obtain ⟨p, hp⟩ := hP
  exact proper_of_mem (h.covers hp)

/-- There is only one. -/
theorem unique (ha : IsHull P a) (hb : IsHull P b) (hP : P.Nonempty) : a = b := by
  refine (ha.proper hP).eq_of_points_eq (hb.proper hP) (Set.Subset.antisymm ?_ ?_)
  · exact ha.least b hb.covers
  · exact hb.least a ha.covers

/-- **The box around two boxes** is the least box around all their points. -/
theorem union (ha : IsHull P a) (hb : IsHull Q b) (hP : P.Nonempty) (hQ : Q.Nonempty) :
    IsHull (P ∪ Q) (a.union b) := by
  constructor
  · rintro p (hp | hp)
    · obtain ⟨⟨hx, hright⟩, hy, hbottom⟩ := ha.covers hp
      exact mem_union_points.mpr ⟨⟨min_le_of_left_le hx, le_max_of_le_left hright⟩,
        min_le_of_left_le hy, le_max_of_le_left hbottom⟩
    · obtain ⟨⟨hx, hright⟩, hy, hbottom⟩ := hb.covers hp
      exact mem_union_points.mpr ⟨⟨min_le_of_right_le hx, le_max_of_le_right hright⟩,
        min_le_of_right_le hy, le_max_of_le_right hbottom⟩
  -- a box that covers both sets covers both hulls, corner by corner
  · intro c hc p hp
    obtain ⟨⟨hx, hright⟩, hy, hbottom⟩ := mem_union_points.mp hp
    obtain ⟨⟨hax, haright⟩, hay, habottom⟩ := (points_subset_iff (ha.proper hP)).mp
      (ha.least c (Set.subset_union_left.trans hc))
    obtain ⟨⟨hbx, hbright⟩, hby, hbbottom⟩ := (points_subset_iff (hb.proper hQ)).mp
      (hb.least c (Set.subset_union_right.trans hc))
    exact ⟨⟨(le_min hax hbx).trans hx, hright.trans (max_le haright hbright)⟩,
      (le_min hay hby).trans hy, hbottom.trans (max_le habottom hbbottom)⟩

end IsHull

/-! ### Images -/

/-- A point is in a box exactly if its image is in the box around the images of the corners. -/
theorem mem_image_coordinates {f g : K → K} (hf : KeepsBetween f) (hg : KeepsBetween g)
    (hb : b.Proper) : (f p.1, g p.2) ∈ (b.image fun p => (f p.1, g p.2)).points ↔ p ∈ b.points := by
  rw [image_coordinates, mem_points, right_between, bottom_between, x_between, y_between,
    hf.between_iff hb.le_right, hg.between_iff hb.le_bottom]
  rfl

end Box

/-! ### Transforms that do not turn -/

namespace Transform

/-- **A shift or a scaling**, by any factor. -/
def Straight : Transform K → Prop
  | translate _ _ => True
  | scale _ => True
  | rotate _ => False

variable {t s : Transform K} {b : Box K} {P : Set (Point K)}

/-- Scaling by zero takes every point to the origin. -/
theorem apply_scale_zero (p : Point K) : (scale 0).apply p = (0, 0) :=
  Prod.ext (mul_zero p.1) (mul_zero p.2)

/-- So the box around its images is the origin. -/
theorem mem_mapBox_scale_zero {r : Point K} :
    r ∈ ((scale 0).mapBox b).points ↔ r = (0, 0) := by
  rw [mapBox, funext apply_scale_zero, Box.image_coordinates (fun _ => 0) (fun _ => 0)]
  simp only [min_self, max_self, Box.mem_points, Box.x_between, Box.y_between,
    Box.right_between, Box.bottom_between]
  rw [and_comm (a := 0 ≤ r.1), and_comm (a := 0 ≤ r.2), ← le_antisymm_iff, ← le_antisymm_iff,
    Prod.ext_iff]

/-- With the factor zero there is nothing to take back, but the origin is all there is. -/
theorem isHull_map_scale_zero (b : Box K) (hP : P.Nonempty) :
    ((scale 0).mapBox b).IsHull ((scale 0).apply '' P) := by
  constructor
  · rintro _ ⟨p, -, rfl⟩
    exact mem_mapBox_scale_zero.mpr (apply_scale_zero p)
  · intro c hc r hr
    obtain ⟨p, hp⟩ := hP
    rw [mem_mapBox_scale_zero.mp hr, ← apply_scale_zero p]
    exact hc ⟨p, hp, rfl⟩

/-- A transform that takes the points of every proper box, and no others, to the points of
    the box around their images. -/
def Fits (t : Transform K) : Prop :=
  ∀ (b : Box K), b.Proper → ∀ p, t.apply p ∈ (t.mapBox b).points ↔ p ∈ b.points

variable [IsStrictOrderedRing K]

/-- A transform fits boxes if it moves each coordinate by itself, forwards or backwards. -/
theorem fits_of_coordinates {f g : K → K} (happly : ∀ p, t.apply p = (f p.1, g p.2))
    (hf : KeepsBetween f) (hg : KeepsBetween g) : t.Fits := by
  intro b hb p
  rw [mapBox, funext happly]
  exact Box.mem_image_coordinates hf hg hb

/-- Shifts fit boxes. -/
theorem fits_translate (x y : K) : (translate x y).Fits := by
  have hshift : ∀ u : K, KeepsBetween (fun v => v + u) := fun u =>
    .inl fun _ _ h => add_lt_add_left h u
  exact fits_of_coordinates (fun _ => rfl) (hshift x) (hshift y)

/-- The box around a shifted box is the shifted box. -/
theorem mapBox_translate (hb : b.Proper) (x y : K) :
    (translate x y).mapBox b = ⟨b.x + x, b.y + y, b.width, b.height⟩ := by
  have hright : b.x + x ≤ b.right + x := add_le_add_left hb.le_right x
  have hbottom : b.y + y ≤ b.bottom + y := add_le_add_left hb.le_bottom y
  have hwidth : b.x + b.width + x - (b.x + x) = b.width := by ring
  have hheight : b.y + b.height + y - (b.y + y) = b.height := by ring
  have himage := Box.image_coordinates (fun u => u + x) (fun u => u + y) b
  rw [min_eq_left hright, max_eq_right hright, min_eq_left hbottom, max_eq_right hbottom,
    Box.between, Box.right, Box.bottom, hwidth, hheight] at himage
  exact himage

/-- Scalings do, by any factor but zero. -/
theorem fits_scale {k : K} (hk : k ≠ 0) : (scale k).Fits := by
  have hscale : KeepsBetween (fun v => v * k) := by
    rcases lt_or_gt_of_ne hk with hneg | hpos
    · exact .inr (strictAnti_mul_right hneg)
    · exact .inl (strictMono_mul_right_of_pos hpos)
  exact fits_of_coordinates (fun _ => rfl) hscale hscale

/-- A transform that can be undone takes the least box around points to the least box around
    their images: what is least there can be taken back. -/
theorem isHull_map_of_inverse (ht : t.Fits) (hs : s.Fits)
    (hleft : ∀ p, s.apply (t.apply p) = p) (hright : ∀ p, t.apply (s.apply p) = p)
    (h : b.IsHull P) (hP : P.Nonempty) : (t.mapBox b).IsHull (t.apply '' P) := by
  constructor
  · rintro _ ⟨p, hp, rfl⟩
    exact (ht b (h.proper hP) p).mpr (h.covers hp)
  · intro c hc r hr
    obtain ⟨p₀, hp₀⟩ := hP
    have hcproper : c.Proper := Box.proper_of_mem (hc ⟨p₀, hp₀, rfl⟩)
    -- the inverse brings the box `c` back over the points before the map
    have hback : P ⊆ (s.mapBox c).points := fun p hp => by
      have hmem := (hs c hcproper (t.apply p)).mpr (hc ⟨p, hp, rfl⟩)
      rwa [hleft] at hmem
    have hpoint : s.apply r ∈ b.points := by
      refine (ht b (h.proper ⟨p₀, hp₀⟩) _).mp ?_
      rwa [hright]
    exact (hs c hcproper r).mp (h.least _ hback hpoint)

/-- **A straight transform keeps least boxes.** -/
theorem Straight.isHull_map (ht : t.Straight) (h : b.IsHull P) (hP : P.Nonempty) :
    (t.mapBox b).IsHull (t.apply '' P) := by
  cases t with
  | translate x y =>
    refine isHull_map_of_inverse (s := translate (-x) (-y)) (fits_translate x y)
      (fits_translate _ _) (fun p => ?_) (fun p => ?_) h hP
    · exact Prod.ext (add_neg_cancel_right p.1 x) (add_neg_cancel_right p.2 y)
    · exact Prod.ext (neg_add_cancel_right p.1 x) (neg_add_cancel_right p.2 y)
  | scale k =>
    -- the factor zero has no inverse: all points fall on the origin
    by_cases hk : k = 0
    · rw [hk]
      exact isHull_map_scale_zero b hP
    · refine isHull_map_of_inverse (s := scale k⁻¹) (fits_scale hk)
        (fits_scale (inv_ne_zero hk)) (fun p => ?_) (fun p => ?_) h hP
      · exact Prod.ext (mul_inv_cancel_right₀ hk p.1) (mul_inv_cancel_right₀ hk p.2)
      · exact Prod.ext (inv_mul_cancel_right₀ hk p.1) (inv_mul_cancel_right₀ hk p.2)
  | rotate degrees => exact absurd ht id

end Transform

end BlockChart
