import BlockChart.Drawing.Bounds
import BlockChart.Proofs.DocumentOrder
import BlockChart.Proofs.Entries

namespace BlockChart

/-!
# Boxes are local

The box of an element is computed by a recursion over its subtree: each child is measured,
its box is mapped through the transform that the child carries, and all boxes are joined.
What the drawing holds elsewhere plays no part, nor do styles, nor does the transform of the
element itself; an element without a box of its own and without children adds nothing.

* `Drawing.content?_of_get?` is the recursion, in terms of ids;
* `Drawing.ShapeKept` and `Drawing.TransformKept` say of one element that two drawings agree
  in what counts, `Drawing.SubtreeKept` says it of a subtree;
* `Drawing.SubtreeKept.bounds_eq` — then the boxes agree, whatever the rest of the drawings;
* `Drawing.Write.Spares` are the writes that a box does not feel, see
  `Drawing.bounds_apply_of_spares`.
-/

section

variable {α : Type} [Scalar α] [NumberText α]

/-! ### Elements -/

namespace Element

/-- The tags of the elements that have a box of their own. -/
def boxTags : List String :=
  ["circle", "rect", "text"]

/-- **Elements of the same shape**: they agree in all that the box of a shape is computed
    from. -/
structure SameShape (e e' : Element) : Prop where
  tag : e'.tag = e.tag
  text : e'.text = e.text
  value : ∀ name, name ≠ "transform" →
    lookupEntry name e'.attributes = lookupEntry name e.attributes

variable {e e' : Element}

theorem SameShape.refl (e : Element) : e.SameShape e :=
  ⟨rfl, rfl, fun _ _ => rfl⟩

/-- The box of a shape is the same. -/
theorem SameShape.shapeBox?_eq (h : e.SameShape e') :
    (e'.shapeBox? : Option (Box α)) = e.shapeBox? := by
  have hnumber : ∀ name, name ≠ "transform" → (e'.number name : α) = e.number name := by
    intro name hname
    rw [number, number, h.value name hname]
  simp only [shapeBox?, h.tag, h.text, hnumber "r" (by decide), hnumber "cx" (by decide),
    hnumber "cy" (by decide), hnumber "x" (by decide), hnumber "y" (by decide),
    hnumber "width" (by decide), hnumber "height" (by decide)]

/-- Elements of other kinds have no box of their own. -/
theorem shapeBox?_eq_none (h : e.tag ∉ boxTags) : (e.shapeBox? : Option (Box α)) = none := by
  unfold shapeBox?
  split
  case h_4 => rfl
  all_goals
    rename_i htag
    exact absurd (by rw [htag]; decide) h

/-- Boxes are placed by the transform alone. -/
theorem placeBox_congr
    (h : lookupEntry "transform" e'.attributes = lookupEntry "transform" e.attributes) :
    (e'.placeBox : Box α → Box α) = e.placeBox := by
  funext b
  rw [placeBox, placeBox, transform?, transform?, h]

end Element

/-! ### The recursion -/

namespace Tree

/-- The box of a tree as its parent sees it. -/
def placedBox? : Tree → Option (Box α)
  | .node id e children => (box? (.node id e children)).map e.placeBox

/-- Of children, only the boxes count, in the order of the children. -/
theorem boxFrom?_eq_foldl (found : Option (Box α)) (ts : List Tree) :
    boxFrom? found ts = (ts.filterMap placedBox?).foldl joinBox? found := by
  induction ts generalizing found with
  | nil => rfl
  | cons t rest ih =>
    obtain ⟨id, e, children⟩ := t
    rw [boxFrom?, List.filterMap_cons, placedBox?]
    cases (box? (.node id e children) : Option (Box α)) with
    | none => exact ih found
    | some b => exact ih _

end Tree

namespace Drawing

variable {d d' : Drawing} {i j c : ElementId} {e : Element}

/-- The box of what an element shows, in its own coordinates; none if nothing in its subtree
    has a box. -/
def content? (d : Drawing) (i : ElementId) : Option (Box α) :=
  (d.tree? i).bind Tree.box?

/-- The same box as the parent of the element sees it. -/
def placedContent? (d : Drawing) (i : ElementId) : Option (Box α) :=
  (d.tree? i).bind Tree.placedBox?

/-- The bounding box is the box of the content, or the zero box where there is none. -/
theorem bounds_eq_getD (d : Drawing) (i : ElementId) :
    (d.bounds i : Box α) = (d.content? i).getD .zero := rfl

/-- **The recursion of boxes**: the element's own box joined with those of its children, one
    after the other. -/
theorem content?_of_get? (he : d.get? i = some e) :
    (d.content? i : Option (Box α))
      = (e.children.filterMap fun c => if i < c then d.placedContent? c else none).foldl
          Tree.joinBox? e.shapeBox? := by
  rw [content?, tree?_of_get? he, Option.bind_some, Tree.box?, Tree.boxFrom?_eq_foldl,
    List.filterMap_filterMap]
  congr 1
  refine List.filterMap_congr fun c _ => ?_
  by_cases hc : i < c
  · rw [if_pos hc, if_pos hc, placedContent?]
  · rw [if_neg hc, if_neg hc, Option.bind_none]

/-- The parent sees the box through the transform that the element carries. -/
theorem placedContent?_of_get? (he : d.get? i = some e) :
    (d.placedContent? i : Option (Box α)) = (d.content? i).map e.placeBox := by
  rw [placedContent?, content?, tree?_of_get? he, Option.bind_some, Option.bind_some,
    Tree.placedBox?]

/-- An id without an element has no content. -/
theorem content?_of_absent (hi : d.get? i = none) :
    (d.content? i : Option (Box α)) = none ∧ (d.placedContent? i : Option (Box α)) = none := by
  have hsize : ¬ i < d.elements.size := Nat.not_lt_of_le (Array.getElem?_eq_none_iff.mp hi)
  rw [content?, placedContent?, tree?, dif_neg hsize]
  exact ⟨rfl, rfl⟩

/-- An element without a box of its own and without children. -/
def Boxless (d : Drawing) (i : ElementId) : Prop :=
  ∃ e, d.get? i = some e ∧ e.tag ∉ Element.boxTags ∧ e.children = []

/-- Such an element has no box at all, rather than a zero box. -/
theorem Boxless.placedContent?_eq_none (h : d.Boxless i) :
    (d.placedContent? i : Option (Box α)) = none := by
  obtain ⟨e, he, htag, hchildren⟩ := h
  rw [placedContent?_of_get? he, content?_of_get? he, hchildren, Element.shapeBox?_eq_none htag]
  rfl

/-! ### What counts -/

/-- The value of an attribute. -/
def attributeOf? (d : Drawing) (i : ElementId) (name : String) : Option String :=
  (d.get? i).bind fun e => lookupEntry name e.attributes

/-- **Element `j` counts for the same in both drawings**, its transform apart: it is in
    neither, or it has the same shape and the same children, but for some that have been
    added without a box. -/
inductive ShapeKept (d d' : Drawing) (j : ElementId) : Prop
  | absent (before : d.get? j = none) (after : d'.get? j = none)
  | present {e e' : Element} {added : List ElementId} (before : d.get? j = some e)
      (after : d'.get? j = some e') (shape : e.SameShape e')
      (children : e'.children = e.children ++ added) (boxless : ∀ c ∈ added, d'.Boxless c)

/-- Element `j` carries the same transform in both drawings. -/
def TransformKept (d d' : Drawing) (j : ElementId) : Prop :=
  d'.attributeOf? j "transform" = d.attributeOf? j "transform"

/-- **All that counts for the box of an element** is the same in both drawings: the shapes in
    its subtree, and the transforms strictly below it. -/
structure SubtreeKept (d d' : Drawing) (i : ElementId) : Prop where
  shape : ∀ j, d.InSubtree i j → ShapeKept d d' j
  transform : ∀ j, Relation.TransGen d.HasChild i j → TransformKept d d' j

/-- A subtree that is kept keeps the subtrees of its children. -/
theorem SubtreeKept.child (h : SubtreeKept d d' i) (hic : d.HasChild i c) :
    SubtreeKept d d' c where
  shape := fun j hj => h.shape j (.head hic hj)
  transform := fun j hj => h.transform j (.head hic hj)

/-- From the outside, an element is seen through its transform. -/
theorem placedContent?_congr (hshape : ShapeKept d d' c) (htransform : TransformKept d d' c)
    (hcontent : (d'.content? c : Option (Box α)) = d.content? c) :
    (d'.placedContent? c : Option (Box α)) = d.placedContent? c := by
  cases hshape with
  | absent hbefore hafter =>
    rw [(content?_of_absent hbefore).2, (content?_of_absent hafter).2]
  | present hbefore hafter =>
    rw [TransformKept, attributeOf?, attributeOf?, hbefore, hafter] at htransform
    rw [placedContent?_of_get? hbefore, placedContent?_of_get? hafter, hcontent,
      Element.placeBox_congr htransform]

/-- **What counts is enough**: the content has the same box. -/
theorem SubtreeKept.content?_eq {i : ElementId} (h : SubtreeKept d d' i) :
    (d'.content? i : Option (Box α)) = d.content? i := by
  cases h.shape i .refl with
  | absent hbefore hafter =>
    rw [(content?_of_absent hbefore).1, (content?_of_absent hafter).1]
  | @present e e' added hbefore hafter hshape hchildren hboxless =>
    have hnone : added.filterMap
        (fun c => if i < c then (d'.placedContent? c : Option (Box α)) else none) = [] := by
      refine List.filterMap_eq_nil_iff.mpr fun c hc => ?_
      rw [(hboxless c hc).placedContent?_eq_none, ite_self]
    rw [content?_of_get? hbefore, content?_of_get? hafter, hshape.shapeBox?_eq, hchildren,
      List.filterMap_append, hnone, List.append_nil]
    congr 1
    -- the children from before are later elements, so their boxes agree by induction
    refine List.filterMap_congr fun c hc => ?_
    have hic : d.HasChild i c := (hasChild_of_get? hbefore).mpr hc
    by_cases hlt : i < c
    · have hsize : i < d.size := lt_size_of_get? hbefore
      rw [if_pos hlt, if_pos hlt]
      exact placedContent?_congr (h.shape c (.single hic)) (h.transform c (.single hic))
        (h.child hic).content?_eq
    · rw [if_neg hlt, if_neg hlt]
termination_by d.size - i
decreasing_by exact Nat.sub_lt_sub_left hsize hlt

/-- **The box of a subtree that is kept is the same.** -/
theorem SubtreeKept.bounds_eq (h : SubtreeKept d d' i) :
    (d'.bounds i : Box α) = d.bounds i := by
  rw [bounds_eq_getD, bounds_eq_getD, h.content?_eq]

end Drawing

end

/-! ### Writes -/

namespace Drawing

variable {d d' : Drawing} {i j c : ElementId}

/-- The element that a write is given. -/
def Write.target : Write → ElementId
  | append parent _ => parent
  | setAttribute id _ _ | setStyle id _ _ | setText id _ => id

/-- **Writes that the box of `i` does not feel.** -/
inductive Write.Spares (d : Drawing) (i : ElementId) : Write → Prop
  /-- A style, of any element. -/
  | style (target : ElementId) (name value : String) : Spares d i (.setStyle target name value)
  /-- The transform of the element itself. -/
  | ownTransform (value : String) : Spares d i (.setAttribute i "transform" value)
  /-- Any write to an element that is not in the subtree, known or not. -/
  | elsewhere {w : Write} (outside : ¬ d.InSubtree i w.target) : Spares d i w
  /-- A new element without a box of its own, below any id. -/
  | boxless (parent : ElementId) {tag : String} (plain : tag ∉ Element.boxTags) :
      Spares d i (.append parent tag)

/-- A write changes no element but its target. -/
theorem get?_apply_of_ne {w : Write} (hj : j < d.size) (hne : j ≠ w.target) :
    (w.apply d).get? j = d.get? j := by
  cases w with
  | append parent tag => exact get?_append_of_ne hj hne
  | setAttribute id name value => exact get?_modify_of_ne hne
  | setStyle id name value => exact get?_modify_of_ne hne
  | setText id content => exact get?_modify_of_ne hne

/-- An element that has not been touched keeps its shape. -/
theorem ShapeKept.of_get?_eq (h : d'.get? j = d.get? j) : ShapeKept d d' j := by
  cases hj : d.get? j with
  | none => exact .absent hj (h.trans hj)
  | some e =>
    exact .present hj (h.trans hj) (.refl e) (List.append_nil _).symm (List.forall_mem_nil _)

theorem TransformKept.of_get?_eq (h : d'.get? j = d.get? j) : TransformKept d d' j := by
  rw [TransformKept, attributeOf?, attributeOf?, h]

section Modify

variable {change : Element → Element}

/-- A change that spares the shape and the children. -/
theorem ShapeKept.modify (hshape : ∀ e : Element, e.SameShape (change e))
    (hchildren : ∀ e, (change e).children = e.children) : ShapeKept d (d.modify c change) j := by
  by_cases hj : j = c
  · subst hj
    cases he : d.get? j with
    | none => exact .absent he (by rw [get?_modify_self, he, Option.map_none])
    | some e =>
      refine .present he (by rw [get?_modify_self, he, Option.map_some]) (hshape e) ?_
        (List.forall_mem_nil _)
      rw [hchildren, List.append_nil]
  · exact .of_get?_eq (get?_modify_of_ne hj)

/-- A change that spares the attributes. -/
theorem attributeOf?_modify {name : String}
    (hattributes : ∀ e, (change e).attributes = e.attributes) :
    (d.modify c change).attributeOf? j name = d.attributeOf? j name := by
  unfold attributeOf?
  by_cases hj : j = c
  · subst hj
    rw [get?_modify_self]
    cases d.get? j with
    | none => rfl
    | some e => rw [Option.map_some, Option.bind_some, Option.bind_some, hattributes]
  · rw [get?_modify_of_ne hj]

theorem TransformKept.modify (hattributes : ∀ e, (change e).attributes = e.attributes) :
    TransformKept d (d.modify c change) j :=
  attributeOf?_modify hattributes

end Modify

/-- An element keeps its shape and its transform when one without a box is added below it or
    elsewhere. -/
theorem kept_append_boxless {tag : String} (htag : tag ∉ Element.boxTags) (hj : j < d.size)
    (parent : ElementId) :
    ShapeKept d (d.append parent tag).2 j ∧ TransformKept d (d.append parent tag).2 j := by
  by_cases hparent : j = parent
  · subst hparent
    obtain ⟨e, he⟩ := exists_get?_of_lt hj
    have hafter : (d.append j tag).2.get? j
        = some { e with children := e.children ++ [d.size] } := by
      rw [get?_append_parent hj, he, Option.map_some]
    -- the parent has one child more, which has no box and so does not count
    have hnew : (d.append j tag).2.Boxless d.size := ⟨_, get?_append_new hj, htag, rfl⟩
    constructor
    · exact .present he hafter ⟨rfl, rfl, fun _ _ => rfl⟩ rfl (List.forall_mem_singleton.mpr hnew)
    · rw [TransformKept, attributeOf?, attributeOf?, he, hafter]
      rfl
  · have hsame : (d.append parent tag).2.get? j = d.get? j := get?_append_of_ne hj hparent
    exact ⟨.of_get?_eq hsame, .of_get?_eq hsame⟩

namespace WellFormed

/-- A subtree does not leave the arena. -/
theorem lt_size_of_inSubtree (h : d.WellFormed) (hi : i < d.size) (hij : d.InSubtree i j) :
    j < d.size := by
  cases hij with
  | refl => exact hi
  | tail _ hchild => exact (h.hasChild hchild).2

/-- The strict descendants of an element are later than it. -/
theorem lt_of_transGen (h : d.WellFormed) (hij : Relation.TransGen d.HasChild i j) : i < j := by
  induction hij with
  | single hchild => exact (h.hasChild hchild).1
  | tail _ hchild ih => exact Nat.lt_trans ih (h.hasChild hchild).1

/-- Each of these writes leaves alone all that counts. -/
theorem subtreeKept (h : d.WellFormed) (hi : i < d.size) {w : Write} (hw : w.Spares d i) :
    SubtreeKept d (w.apply d) i := by
  cases hw with
  | style target name value =>
    exact ⟨fun _ _ => .modify (fun _ => ⟨rfl, rfl, fun _ _ => rfl⟩) fun _ => rfl,
      fun _ _ => .modify fun _ => rfl⟩
  | ownTransform value =>
    have hshape : ∀ e : Element, e.SameShape
        { e with attributes := upsertEntry "transform" value e.attributes } := fun e =>
      ⟨rfl, rfl, fun _ hname => lookupEntry_upsertEntry_of_ne hname value e.attributes⟩
    refine ⟨fun _ _ => .modify hshape fun _ => rfl, fun j hj => .of_get?_eq ?_⟩
    -- the element is not among its own descendants
    exact get?_modify_of_ne (Nat.ne_of_gt (h.lt_of_transGen hj))
  | elsewhere houtside =>
    have hsame : ∀ j, d.InSubtree i j → (w.apply d).get? j = d.get? j := fun j hj =>
      get?_apply_of_ne (h.lt_size_of_inSubtree hi hj) fun heq => houtside (heq ▸ hj)
    exact ⟨fun j hj => .of_get?_eq (hsame j hj),
      fun j hj => .of_get?_eq (hsame j hj.to_reflTransGen)⟩
  | boxless parent htag =>
    have hkept := fun j (hj : d.InSubtree i j) =>
      kept_append_boxless htag (h.lt_size_of_inSubtree hi hj) parent
    exact ⟨fun j hj => (hkept j hj).1, fun j hj => (hkept j hj.to_reflTransGen).2⟩

end WellFormed

/-- **Boxes are local.**  The box of an element does not feel styles, its own transform, any
    write outside its subtree, and new elements without a box of their own, wherever they are
    added. -/
theorem bounds_apply_of_spares {α : Type} [Scalar α] [NumberText α] (h : d.WellFormed)
    (hi : i < d.size) {w : Write} (hw : w.Spares d i) :
    ((w.apply d).bounds i : Box α) = d.bounds i :=
  (h.subtreeKept hi hw).bounds_eq

/-- The second group is not in the subtree of the first one. -/
theorem not_inSubtree_nestedGroups : ¬ nestedGroups.InSubtree 1 2 := by
  have hwell := isTree_nestedGroups.wellFormed
  intro hin
  rcases Relation.ReflTransGen.cases_head hin with heq | ⟨c, hc, hbelow⟩
  · exact absurd heq (by decide)
  · -- the children of the first group are later than the second group
    have hmem : c ∈ [3, 4] := hc
    have hle : c ≤ 2 := (hwell.leadsDown c).le hbelow
    simp only [List.mem_cons, List.not_mem_nil, or_false] at hmem
    rcases hmem with rfl | rfl <;> exact absurd hle (by decide)

/-- Of two groups side by side: a style and a group inside the first one, its own transform,
    and a circle in the second one. -/
theorem bounds_apply_of_spares_nestedGroups :
    nestedGroups.WellFormed ∧ 1 < nestedGroups.size ∧
      ∀ w ∈ [Write.setStyle 3 "fill" "red", .append 4 "g", .setAttribute 1 "transform" "scale(2)",
          .append 2 "circle"],
        w.Spares nestedGroups 1 ∧
          ((w.apply nestedGroups).bounds 1 : Box Float) = nestedGroups.bounds 1 := by
  have hwell := isTree_nestedGroups.wellFormed
  have hsize : 1 < nestedGroups.size := by decide
  refine ⟨hwell, hsize, fun w hw => ?_⟩
  have hspares : w.Spares nestedGroups 1 := by
    simp only [List.mem_cons, List.not_mem_nil, or_false] at hw
    rcases hw with rfl | rfl | rfl | rfl
    · exact .style ..
    · exact .boxless 4 (by decide)
    · exact .ownTransform _
    · exact .elsewhere not_inSubtree_nestedGroups
  exact ⟨hspares, bounds_apply_of_spares hwell hsize hspares⟩

end Drawing

end BlockChart
