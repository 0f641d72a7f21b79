import Mathlib
import BlockChart.Proofs.BoxLocality
import BlockChart.Proofs.ShownPoints

namespace BlockChart

/-!
# Bounding boxes are tight

In exact arithmetic the box of an element is the least box around all that the element shows:
the shapes in its subtree, each moved by the transforms that are met on the way down to it.
Boxes are joined and mapped on the way up, one element at a time, and as long as nothing is
turned no step loses anything.  What is shown is a set, so the order of siblings plays no
part.

* `Box.HullOf` — a least box, or none where there are no points; `HullOf.foldl` joins those of
  several children;
* `Element.hullOf_shows` — shapes are measured right, and `Element.Moves.hullOf_image` — least
  boxes are moved to least boxes;
* `Drawing.bounds_isHull` — the recursion `Drawing.content?_of_get?` of boxes agrees with the
  recursion `Drawing.shown_of_get?` of what is shown.
-/

variable {K : Type} [Field K] [LinearOrder K] [Angular K]

/-! ### Least boxes of sets that may be empty -/

namespace Box

/-- The least box around some points, none if there are no points. -/
inductive HullOf (P : Set (Point K)) : Option (Box K) → Prop
  | none (empty : P = ∅) : HullOf P none
  | some {b : Box K} (nonempty : P.Nonempty) (hull : b.IsHull P) : HullOf P (some b)

namespace HullOf

variable {P Q : Set (Point K)} {o o' : Option (Box K)} {b : Box K}

/-- Where there are no points there is no box. -/
theorem eq_none (h : HullOf P o) (hP : P = ∅) : o = .none := by
  cases h with
  | none => rfl
  | some hne => exact absurd hP hne.ne_empty

/-- Where there are points there is the least box around them. -/
theorem exists_isHull (h : HullOf P o) (hP : P.Nonempty) : ∃ b, o = .some b ∧ Box.IsHull P b := by
  cases h with
  | none hempty => exact absurd hempty hP.ne_empty
  | some _ hb => exact ⟨_, rfl, hb⟩

variable [IsStrictOrderedRing K]

/-- There is only one. -/
theorem unique (h : HullOf P o) (h' : HullOf P o') : o = o' := by
  rcases P.eq_empty_or_nonempty with hP | hP
  · rw [h.eq_none hP, h'.eq_none hP]
  · obtain ⟨b, rfl, hb⟩ := h.exists_isHull hP
    obtain ⟨b', rfl, hb'⟩ := h'.exists_isHull hP
    rw [hb.unique hb' hP]

/-- A proper box is the least one around its points. -/
theorem of_proper (h : b.Proper) : HullOf b.points (.some b) :=
  .some ⟨_, h.corners_mem.1⟩ (isHull_points b)

/-- Joining one more box. -/
theorem join (h : HullOf P o) (hQ : Q.Nonempty) (hb : b.IsHull Q) :
    HullOf (P ∪ Q) (Tree.joinBox? o b) := by
  cases h with
  | none hempty =>
    rw [hempty, Set.empty_union]
    exact .some hQ hb
  | some hP ha => exact .some (hP.mono Set.subset_union_left) (ha.union hb hP hQ)

/-- **Joining the boxes of several children**, one after the other. -/
theorem foldl {points : ElementId → Set (Point K)} {box : ElementId → Option (Box K)}
    {children : List ElementId} (h : HullOf P o)
    (hbox : ∀ c ∈ children, HullOf (points c) (box c)) :
    HullOf (P ∪ ⋃ c ∈ children, points c) ((children.filterMap box).foldl Tree.joinBox? o) := by
  induction children generalizing P o with
  | nil => simpa using h
  | cons c rest ih =>
    have hrest : ∀ c' ∈ rest, HullOf (points c') (box c') := fun c' hc' =>
      hbox c' (List.mem_cons_of_mem c hc')
    have hunion : P ∪ ⋃ c' ∈ c :: rest, points c' = P ∪ points c ∪ ⋃ c' ∈ rest, points c' := by
      simp [Set.union_assoc, Set.iUnion_or, Set.iUnion_union_distrib]
    rw [hunion, List.filterMap_cons]
    have hfirst := hbox c List.mem_cons_self
    -- a child without a box shows nothing, and adds nothing to the hull
    cases hc : box c with
    | none =>
      rw [hc] at hfirst
      obtain ⟨hempty⟩ := hfirst
      rw [hempty, Set.union_empty]
      exact ih h hrest
    | some b =>
      rw [hc] at hfirst
      obtain - | ⟨hQ, hb⟩ := hfirst
      exact ih (h.join hQ hb) hrest

end HullOf

end Box

/-! ### Shapes -/

namespace Box

variable [IsStrictOrderedRing K]

/-- **The least box around a disc**: its four extreme points are on the four sides. -/
theorem isHull_disc (cx cy : K) {r : K} (hr : 0 ≤ r) :
    IsHull {p | (p.1 - cx) ^ 2 + (p.2 - cy) ^ 2 ≤ r ^ 2} ⟨cx - r, cy - r, 2 * r, 2 * r⟩ := by
  constructor
  · intro p hp
    have hacross : |p.1 - cx| ≤ r :=
      abs_le_of_sq_le_sq ((le_add_of_nonneg_right (sq_nonneg _)).trans hp) hr
    have hdown : |p.2 - cy| ≤ r :=
      abs_le_of_sq_le_sq ((le_add_of_nonneg_left (sq_nonneg _)).trans hp) hr
    rw [abs_le] at hacross hdown
    refine ⟨⟨?_, ?_⟩, ?_, ?_⟩ <;> dsimp only <;> linarith
  -- the four outermost points of the disc already need the whole square
  · intro b hb p hp
    have hleft : (cx - r, cy) ∈ b.points := hb (by simp)
    have hright : (cx + r, cy) ∈ b.points := hb (by simp)
    have habove : (cx, cy - r) ∈ b.points := hb (by simp)
    have hunder : (cx, cy + r) ∈ b.points := hb (by simp)
    obtain ⟨⟨hpx, hpright⟩, hpy, hpbottom⟩ := hp
    dsimp only at hpx hpright hpy hpbottom
    refine ⟨⟨hleft.1.1.trans hpx, ?_⟩, habove.2.1.trans hpy, ?_⟩
    · linarith [hright.1.2]
    · linarith [hunder.2.2]

end Box

namespace Element

variable [NumberText K] {e : Element} {p : Point K}

/-- Elements of other kinds show nothing by themselves. -/
theorem not_shows (htag : e.tag ∉ boxTags) : ¬ e.Shows p := by
  rintro (⟨h⟩ | ⟨h⟩ | ⟨h⟩)
  all_goals exact htag (by rw [h]; decide)

variable [IsStrictOrderedRing K]

/-- The number of an attribute is the one that is read. -/
theorem numberAt_iff {name : String} {x : K} :
    NumberAt e.attributes name x ↔ (e.number name : K) = x := by
  have hzero : (0.0 : K) = 0 := by norm_num
  constructor
  · rintro (⟨here, trims, reads⟩ | unread)
    · rw [number, here, Option.bind_some, trimmed, trims.trimChars_eq, reads, Option.getD_some]
    -- an attribute that cannot be read counts as zero, like one that is not there
    · cases hs : lookupEntry name e.attributes with
      | none =>
        rw [number, hs]
        exact hzero
      | some s =>
        rw [number, hs, Option.bind_some, trimmed, unread s _ hs (trims_trimChars s.toList)]
        exact hzero
  · rintro rfl
    cases hread : (lookupEntry name e.attributes).bind
        fun s => NumberText.read? (α := K) (trimmed s) with
    | some x =>
      obtain ⟨s, hs, hx⟩ := Option.bind_eq_some_iff.mp hread
      rw [number, hread]
      exact .given hs (trims_trimChars s.toList) hx
    | none =>
      have hunread : ∀ s w, lookupEntry name e.attributes = some s → Trims s.toList w →
          NumberText.read? (α := K) (String.ofList w) = none := by
        intro s w hs hw
        rw [hs, Option.bind_some, trimmed, hw.trimChars_eq] at hread
        exact hread
      have hmissing : (e.number name : K) = 0 := by
        rw [number, hread]
        exact hzero
      rw [hmissing]
      exact .missing hunread

/-- The points of a circle. -/
theorem shows_circle_iff (htag : e.tag = "circle") :
    e.Shows p ↔ (p.1 - e.number "cx") ^ 2 + (p.2 - e.number "cy") ^ 2 ≤ e.number "r" ^ 2 := by
  constructor
  · rintro (⟨-, hcx, hcy, hr, hinside⟩ | ⟨hother⟩ | ⟨hother⟩)
    · rwa [numberAt_iff.mp hcx, numberAt_iff.mp hcy, numberAt_iff.mp hr]
    · exact absurd (htag.symm.trans hother) (by decide)
    · exact absurd (htag.symm.trans hother) (by decide)
  · exact .circle htag (numberAt_iff.mpr rfl) (numberAt_iff.mpr rfl) (numberAt_iff.mpr rfl)

/-- The points of a rectangle. -/
theorem shows_rect_iff (htag : e.tag = "rect") :
    e.Shows p ↔
      p ∈ (⟨e.number "x", e.number "y", e.number "width", e.number "height"⟩ : Box K).points := by
  constructor
  · rintro (⟨hother⟩ | ⟨-, hx, hy, hw, hh, hacross, hdown⟩ | ⟨hother⟩)
    · exact absurd (htag.symm.trans hother) (by decide)
    · rw [numberAt_iff.mp hx, numberAt_iff.mp hy, numberAt_iff.mp hw, numberAt_iff.mp hh]
      exact ⟨hacross, hdown⟩
    · exact absurd (htag.symm.trans hother) (by decide)
  · rintro ⟨hacross, hdown⟩
    exact .rect htag (numberAt_iff.mpr rfl) (numberAt_iff.mpr rfl) (numberAt_iff.mpr rfl)
      (numberAt_iff.mpr rfl) hacross hdown

/-- The points of a text. -/
theorem shows_text_iff (htag : e.tag = "text") :
    e.Shows p ↔ p ∈ (⟨e.number "x", e.number "y" - 12.8,
      (e.text.map String.length).getD 0 * 9.6, 16⟩ : Box K).points := by
  -- the 16 from the top of a text to its bottom are 12.8 above the base line and 3.2 below
  have hbottom : (e.number "y" - 12.8 + 16 : K) = e.number "y" + 3.2 := by norm_num; ring
  constructor
  · rintro (⟨hother⟩ | ⟨hother⟩ | ⟨-, hx, hy, hacross, hdown⟩)
    · exact absurd (htag.symm.trans hother) (by decide)
    · exact absurd (htag.symm.trans hother) (by decide)
    · rw [← numberAt_iff.mp hy, ← hbottom] at hdown
      rw [← numberAt_iff.mp hx] at hacross
      exact ⟨hacross, hdown⟩
  · rintro ⟨hacross, hdown⟩
    rw [hbottom] at hdown
    exact .text htag (numberAt_iff.mpr rfl) (numberAt_iff.mpr rfl) hacross hdown

/-- A circle is measured right. -/
theorem hullOf_circle (htag : e.tag = "circle") (hr : (0 : K) ≤ e.number "r") :
    Box.HullOf {p : Point K | e.Shows p} e.shapeBox? := by
  have hbox : e.shapeBox? = some (⟨e.number "cx" - e.number "r", e.number "cy" - e.number "r",
      2.0 * e.number "r", 2.0 * e.number "r"⟩ : Box K) := by
    cases e
    cases htag
    rfl
  have htwo : (2.0 : K) = 2 := by norm_num
  have hcentre : ((e.number "cx", e.number "cy") : Point K) ∈ {p : Point K | e.Shows p} :=
    (shows_circle_iff htag).mpr (by simp [sq_nonneg])
  have hdisc : {p : Point K | e.Shows p} = {p | (p.1 - e.number "cx") ^ 2
      + (p.2 - e.number "cy") ^ 2 ≤ e.number "r" ^ 2} := Set.ext fun p => shows_circle_iff htag
  rw [hbox, htwo]
  refine .some ⟨_, hcentre⟩ ?_
  rw [hdisc]
  exact Box.isHull_disc _ _ hr

/-- A rectangle is measured right. -/
theorem hullOf_rect (htag : e.tag = "rect") (hwidth : (0 : K) ≤ e.number "width")
    (hheight : (0 : K) ≤ e.number "height") :
    Box.HullOf {p : Point K | e.Shows p} e.shapeBox? := by
  have hbox : e.shapeBox? = some (⟨e.number "x", e.number "y", e.number "width",
      e.number "height"⟩ : Box K) := by
    cases e
    cases htag
    rfl
  rw [hbox, Set.ext fun p => shows_rect_iff htag]
  exact .of_proper ⟨hwidth, hheight⟩

/-- A text is measured right. -/
theorem hullOf_text (htag : e.tag = "text") :
    Box.HullOf {p : Point K | e.Shows p} e.shapeBox? := by
  have hbox : e.shapeBox? = some (⟨e.number "x", e.number "y" - 0.8 * 16.0,
      (e.text.map String.length).getD 0 * 0.6 * 16.0, 16.0⟩ : Box K) := by
    cases e
    cases htag
    rfl
  have hascent : (0.8 * 16.0 : K) = 12.8 := by norm_num
  have hadvance : ∀ n : K, n * 0.6 * 16.0 = n * 9.6 := by
    intro n
    rw [mul_assoc]
    norm_num
  have hsize : (16.0 : K) = 16 := by norm_num
  rw [hbox, hascent, hadvance, hsize, Set.ext fun p => shows_text_iff htag]
  exact .of_proper ⟨by positivity, by norm_num⟩

/-- **Shapes are measured right**: the box of a shape is the least one around its points. -/
theorem hullOf_shows (h : e.Sized K) : Box.HullOf {p : Point K | e.Shows p} e.shapeBox? := by
  by_cases hcircle : e.tag = "circle"
  · exact hullOf_circle hcircle (h.radius hcircle _ (numberAt_iff.mpr rfl))
  by_cases hrect : e.tag = "rect"
  · exact hullOf_rect hrect (h.width hrect _ (numberAt_iff.mpr rfl))
      (h.height hrect _ (numberAt_iff.mpr rfl))
  by_cases htext : e.tag = "text"
  · exact hullOf_text htext
  · have hother : e.tag ∉ boxTags := by simp [boxTags, hcircle, hrect, htext]
    rw [shapeBox?_eq_none hother]
    exact .none (Set.eq_empty_iff_forall_notMem.mpr fun p => not_shows hother)

end Element

/-! ### Transforms -/

namespace Element

variable [NumberText K] {e : Element} {P : Set (Point K)} {o : Option (Box K)}

/-- The transform of an element is the one that its attribute denotes. -/
theorem transform?_eq_some_iff {t : Transform K} :
    e.transform? = some t ↔
      ∃ s, lookupEntry "transform" e.attributes = some s ∧ Transform.Denotes s t := by
  rw [transform?, Option.bind_eq_some_iff]
  refine exists_congr fun s => and_congr_right fun _ => ?_
  rw [← Transform.parse_eq_ok_iff]
  cases Transform.parse (α := K) s <;> simp [Except.toOption]

/-- How an element moves points is told by its transform. -/
theorem Moves.eq_apply {f : Point K → Point K} (h : e.Moves f) :
    ((e.transform? : Option (Transform K)) = none ∧ f = id) ∨
      ∃ t : Transform K, e.transform? = some t ∧ t.Straight ∧ f = t.apply := by
  cases h with
  | shift here denotes =>
    exact .inr ⟨_, transform?_eq_some_iff.mpr ⟨_, here, denotes⟩, trivial, rfl⟩
  | scaling here denotes =>
    exact .inr ⟨_, transform?_eq_some_iff.mpr ⟨_, here, denotes⟩, trivial, rfl⟩
  | stay unread =>
    refine .inl ⟨Option.eq_none_iff_forall_ne_some.mpr fun t ht => ?_, rfl⟩
    obtain ⟨s, here, denotes⟩ := transform?_eq_some_iff.mp ht
    exact unread s t here denotes

/-- It moves them in one way only. -/
theorem Moves.unique {f g : Point K → Point K} (hf : e.Moves f) (hg : e.Moves g) : f = g := by
  rcases hf.eq_apply with ⟨hnone, rfl⟩ | ⟨t, ht, -, rfl⟩
  · rcases hg.eq_apply with ⟨-, rfl⟩ | ⟨t', ht', -, -⟩
    · rfl
    · exact absurd (hnone.symm.trans ht') (by simp)
  · rcases hg.eq_apply with ⟨hnone, -⟩ | ⟨t', ht', -, rfl⟩
    · exact absurd (hnone.symm.trans ht) (by simp)
    · rw [Option.some.inj (ht.symm.trans ht')]

/-- An element that turns nothing does move points in some way. -/
theorem Unturned.exists_moves (h : e.Unturned K) : ∃ f : Point K → Point K, e.Moves f := by
  cases ht : (e.transform? : Option (Transform K)) with
  | none =>
    refine ⟨id, .stay fun s t here denotes => ?_⟩
    rw [transform?_eq_some_iff.mpr ⟨s, here, denotes⟩] at ht
    cases ht
  | some t =>
    obtain ⟨s, here, denotes⟩ := transform?_eq_some_iff.mp ht
    cases t with
    | translate x y => exact ⟨_, .shift here denotes⟩
    | scale k => exact ⟨_, .scaling here denotes⟩
    | rotate degrees => exact absurd denotes (h s degrees here)

variable [IsStrictOrderedRing K]

/-- **Least boxes are moved to least boxes** by an element that does not turn them. -/
theorem Moves.hullOf_image {f : Point K → Point K} (hf : e.Moves f) (h : Box.HullOf P o) :
    Box.HullOf (f '' P) (o.map e.placeBox) := by
  have hplace : ∀ b : Box K, P.Nonempty → b.IsHull P → (e.placeBox b).IsHull (f '' P) := by
    intro b hP hb
    rcases hf.eq_apply with ⟨hnone, rfl⟩ | ⟨t, ht, hstraight, rfl⟩
    · rw [placeBox, hnone, Set.image_id]
      exact hb
    · rw [placeBox, ht]
      exact hstraight.isHull_map hb hP
  cases h with
  | none hempty => exact .none (by rw [hempty, Set.image_empty])
  | some hP hb => exact .some (hP.image _) (hplace _ hP hb)

end Element

namespace Drawing

variable [NumberText K] {d d' : Drawing} {i j c : ElementId} {e : Element}

/-! ### Boxes are tight -/

/-- What a child shows as its parent sees it, where the child turns nothing. -/
theorem shownOutside_eq {f : Point K → Point K} (he : d.get? c = some e) (hf : e.Moves f) :
    d.shownOutside c = f '' d.shown c := by
  ext p
  constructor
  · rintro ⟨e', g, he', hg, hp⟩
    obtain rfl := Option.some.inj (he.symm.trans he')
    rwa [hf.unique hg]
  · exact fun hp => ⟨e, f, he, hf, hp⟩

/-- A group with a single child shows what the child does. -/
theorem shown_single {ec : Element} {f : Point K → Point K} (he : d.get? i = some e)
    (htag : e.tag ∉ Element.boxTags) (hchildren : e.children = [c]) (hec : d.get? c = some ec)
    (hf : ec.Moves f) : d.shown i = f '' d.shown c := by
  have hown : {p : Point K | e.Shows p} = ∅ :=
    Set.eq_empty_iff_forall_notMem.mpr fun _ => Element.not_shows htag
  rw [shown_of_get? he, hown, hchildren, Set.empty_union]
  simpa using shownOutside_eq hec hf

variable [IsStrictOrderedRing K]

/-- **The box of the content is the least one** around what is shown, and there is none where
    nothing is shown. -/
theorem WellFormed.hullOf_content {i : ElementId} (hd : d.WellFormed) (h : d.Upright K i) :
    Box.HullOf (d.shown i : Set (Point K)) (d.content? i) := by
  cases he : d.get? i with
  | none =>
    rw [(content?_of_absent he).1]
    exact .none (shown_of_absent he)
  | some e =>
    rw [shown_of_get? he, content?_of_get? he]
    refine (Element.hullOf_shows (h.sized i e .refl he)).foldl fun c hc => ?_
    -- children are later elements, so their boxes are least by induction
    obtain ⟨hlt, hsize⟩ := hd i e he c hc
    obtain ⟨ec, hec⟩ := exists_get?_of_lt hsize
    have hic : d.HasChild i c := (hasChild_of_get? he).mpr hc
    obtain ⟨f, hf⟩ := (h.unturned c ec (.single hic) hec).exists_moves
    have hilt : i < d.size := lt_size_of_get? he
    rw [if_pos hlt, placedContent?_of_get? hec, shownOutside_eq hec hf]
    exact hf.hullOf_image (hd.hullOf_content (h.child hic))
termination_by d.size - i
decreasing_by exact Nat.sub_lt_sub_left hilt hlt

/-- **The bounding box is the tight hull.**  In exact arithmetic, and where no shape has a
    negative size and nothing is turned, the box of an element is the least box around the
    shapes in its subtree, each moved by the composed transforms of the elements strictly below
    it on the way down; it is the zero box if there is no shape.  With the siblings in another
    order the box is the same. -/
theorem bounds_isHull (d : Drawing) (hd : d.WellFormed) (i : ElementId) (hup : d.Upright K i) :
    ((d.shown i : Set (Point K)).Nonempty → Box.IsHull (d.shown i) (d.bounds i : Box K)) ∧
      ((d.shown i : Set (Point K)) = ∅ → (d.bounds i : Box K) = ⟨0, 0, 0, 0⟩) ∧
      ∀ d' : Drawing, d.Reorders d' → (d'.bounds i : Box K) = d.bounds i := by
  have hhull := hd.hullOf_content hup
  refine ⟨fun hshown => ?_, fun hnone => ?_, fun d' hd' => ?_⟩
  · obtain ⟨b, hb, hleast⟩ := hhull.exists_isHull hshown
    rw [bounds_eq_getD, hb]
    exact hleast
  · have hzero : (0.0 : K) = 0 := by norm_num
    rw [bounds_eq_getD, hhull.eq_none hnone, Option.getD_none, Box.zero, hzero]
  -- the same points have the same hull, in whatever order the children are listed
  · have hhull' := (hd'.wellFormed hd).hullOf_content (hd'.upright hup)
    rw [hd'.shown_eq] at hhull'
    rw [bounds_eq_getD, bounds_eq_getD, hhull'.unique hhull]

/-- Numbers written as whole ones, enough for the drawing below. -/
noncomputable local instance wholeNumberText : NumberText ℝ where
  write x := toString ⌊x⌋
  read? s :=
    let (negative, digits) := takeSign s.toList
    if digits.all Char.isDigit then
      some (if negative then -(digitsValue digits : ℝ) else digitsValue digits)
    else none
  unreadable := 0

/-- A rectangle in a group that doubles and mirrors it. -/
def mirroredRect : Drawing :=
  ⟨#[⟨"svg", [], [], none, none, [1]⟩,
    ⟨"g", [("transform", "scale(-2)")], [], none, some 0, [2]⟩,
    ⟨"rect", [("x", "1"), ("y", "2"), ("width", "3"), ("height", "4")], [], none, some 1, []⟩]⟩

/-- It has three elements. -/
theorem get?_mirroredRect {j : ElementId} {e : Element} (he : mirroredRect.get? j = some e) :
    (j = 0 ∧ mirroredRect.elements[0] = e) ∨ (j = 1 ∧ mirroredRect.elements[1] = e) ∨
      (j = 2 ∧ mirroredRect.elements[2] = e) := by
  match j, lt_size_of_get? he with
  | 0, _ => exact .inl ⟨rfl, Option.some.inj he⟩
  | 1, _ => exact .inr (.inl ⟨rfl, Option.some.inj he⟩)
  | 2, _ => exact .inr (.inr ⟨rfl, Option.some.inj he⟩)

theorem wellFormed_mirroredRect : mirroredRect.WellFormed := by
  intro j e he
  rcases get?_mirroredRect he with ⟨rfl, rfl⟩ | ⟨rfl, rfl⟩ | ⟨rfl, rfl⟩ <;> decide

/-- The text of the group is that of a scaling. -/
theorem denotes_mirroredRect : Transform.Denotes "scale(-2)" (.scale (-2 : ℝ)) := by
  have hparse : Transform.parse "scale(-2)" = .ok (.scale (-((2 : ℕ) : ℝ))) := rfl
  exact Transform.parse_eq_ok_iff.mp (by simpa using hparse)

theorem upright_mirroredRect : mirroredRect.Upright ℝ root := by
  have hsizeless : ∀ e : Element, e.tag ∉ Element.boxTags → e.Sized ℝ := fun e htag =>
    { radius := fun h => absurd (by rw [h]; decide) htag
      width := fun h => absurd (by rw [h]; decide) htag
      height := fun h => absurd (by rw [h]; decide) htag }
  refine ⟨fun j e _ he => ?_, fun j e _ he s degrees here hturns => ?_⟩
  · rcases get?_mirroredRect he with ⟨rfl, rfl⟩ | ⟨rfl, rfl⟩ | ⟨rfl, rfl⟩
    · exact hsizeless _ (by decide)
    · exact hsizeless _ (by decide)
    · exact
        { radius := fun h => absurd h (by decide)
          width := fun _ w hw => Element.numberAt_iff.mp hw ▸ Nat.cast_nonneg 3
          height := fun _ h hh => Element.numberAt_iff.mp hh ▸ Nat.cast_nonneg 4 }
  · rcases get?_mirroredRect he with ⟨rfl, rfl⟩ | ⟨rfl, rfl⟩ | ⟨rfl, rfl⟩
    · cases here
    · -- the text of the group denotes a scaling already
      obtain rfl := Option.some.inj here
      have htwo := (Transform.parse_eq_ok_iff.mpr denotes_mirroredRect).symm.trans
        (Transform.parse_eq_ok_iff.mpr hturns)
      cases Except.ok.inj htwo
    · cases here

/-- The rectangle reaches from 1 to 4 and from 2 to 6, and is seen from -8 to -2 and from -12
    to -4. -/
theorem shown_mirroredRect :
    mirroredRect.shown root = (Set.Icc (-8) (-2) ×ˢ Set.Icc (-12) (-4) : Set (Point ℝ)) := by
  -- the rectangle by itself, then in its group, and then mirrored and doubled
  have hrect : mirroredRect.shown 2 = (Set.Icc 1 4 ×ˢ Set.Icc 2 6 : Set (Point ℝ)) := by
    have hget : mirroredRect.get? 2 = some mirroredRect.elements[2] := rfl
    have hnone : ⋃ c ∈ mirroredRect.elements[2].children,
        (mirroredRect.shownOutside c : Set (Point ℝ)) = ∅ := by
      simp [mirroredRect]
    rw [shown_of_get? hget, hnone, Set.union_empty]
    ext p
    rw [Set.mem_ofPred_eq, Element.shows_rect_iff rfl, Set.mem_prod, Set.mem_Icc, Set.mem_Icc]
    show (((1 : ℕ) : ℝ) ≤ p.1 ∧ p.1 ≤ (1 : ℕ) + (3 : ℕ)) ∧
      (((2 : ℕ) : ℝ) ≤ p.2 ∧ p.2 ≤ (2 : ℕ) + (4 : ℕ)) ↔ _
    norm_num
  have hgroup : mirroredRect.shown 1 = id '' (mirroredRect.shown 2 : Set (Point ℝ)) :=
    shown_single rfl (by decide) rfl rfl (.stay fun s t here => by cases here)
  have htop : mirroredRect.shown root
      = (fun p => (p.1 * -2, p.2 * -2)) '' (mirroredRect.shown 1 : Set (Point ℝ)) :=
    shown_single rfl (by decide) rfl rfl (.scaling rfl denotes_mirroredRect)
  rw [htop, hgroup, hrect, Set.image_id]
  ext p
  simp only [Set.mem_image, Set.mem_prod, Set.mem_Icc]
  constructor
  · rintro ⟨q, ⟨⟨_, _⟩, _, _⟩, rfl⟩
    refine ⟨⟨?_, ?_⟩, ?_, ?_⟩ <;> dsimp only <;> linarith
  · rintro ⟨⟨_, _⟩, _, _⟩
    refine ⟨(p.1 / -2, p.2 / -2), ⟨⟨?_, ?_⟩, ?_, ?_⟩, Prod.ext ?_ ?_⟩ <;> dsimp only <;> linarith

/-- The mirrored rectangle: what is shown, the least box around it, and the numbers of that box. -/
theorem bounds_isHull_mirroredRect :
    mirroredRect.WellFormed ∧ mirroredRect.Upright ℝ root ∧
      mirroredRect.shown root = (Set.Icc (-8) (-2) ×ˢ Set.Icc (-12) (-4) : Set (Point ℝ)) ∧
      Box.IsHull (mirroredRect.shown root) (mirroredRect.bounds root : Box ℝ) ∧
      (mirroredRect.bounds root : Box ℝ) = ⟨-8, -12, 6, 8⟩ := by
  have hnonempty : (mirroredRect.shown root : Set (Point ℝ)).Nonempty := by
    rw [shown_mirroredRect]
    exact ⟨(-8, -12), by norm_num⟩
  have hhull := (bounds_isHull mirroredRect wellFormed_mirroredRect root
    upright_mirroredRect).1 hnonempty
  have hpoints : mirroredRect.shown root = (⟨-8, -12, 6, 8⟩ : Box ℝ).points := by
    rw [shown_mirroredRect]
    ext p
    rw [Set.mem_prod, Set.mem_Icc, Set.mem_Icc]
    norm_num [Box.points]
  have hbox := hhull.unique (hpoints ▸ Box.isHull_points _) hnonempty
  exact ⟨wellFormed_mirroredRect, upright_mirroredRect, shown_mirroredRect, hhull, hbox⟩

end Drawing

end BlockChart
