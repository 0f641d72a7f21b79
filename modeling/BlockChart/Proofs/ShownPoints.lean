import Mathlib
import BlockChart.Proofs.DocumentOrder
import BlockChart.Proofs.ExactBoxes
import BlockChart.Proofs.TransformGrammar

namespace BlockChart

/-!
# What a drawing shows

The points of the plane that an element of a drawing shows, in exact arithmetic: a disc, a
rectangle or the lines of a text, moved by the transforms that are met on the way down to it.
All of it is said of the tags and the texts of attributes; no box and no reader of transforms
is used.

* `Element.Stands` — the number of an attribute, `Element.Shows` — the points of a shape;
* `Element.Moves` — how the text of a transform moves points;
* `Drawing.Way` — a way down, with the composed transforms that are met on it, and
  `Drawing.shown` — the points that are shown;
* `Drawing.Upright` — no shape has a negative size and nothing is turned;
* `Drawing.Reorders` — siblings in another order show the same.
-/

variable {K : Type} [Field K] [LinearOrder K] [Angular K] [NumberText K]

/-! ### Shapes -/

/-- **The number of an attribute**: the numeral that is its text, white space aside, and zero if
    the attribute is missing or its text is no numeral. -/
inductive NumberAt (attributes : List (String × String)) (name : String) : K → Prop
  | given {s : String} {w : List Char} {x : K} (here : lookupEntry name attributes = some s)
      (trims : Trims s.toList w) (reads : NumberText.read? (String.ofList w) = some x) :
      NumberAt attributes name x
  | missing (unread : ∀ s w, lookupEntry name attributes = some s → Trims s.toList w →
      NumberText.read? (α := K) (String.ofList w) = none) : NumberAt attributes name 0

namespace Element

/-- **A point of a shape.**  A circle is a disc about its centre, a rectangle reaches from its
    corner as far as its sizes, and a text has 9.6 by 16 for every character, of which 12.8 are
    above the base line.  Other elements show nothing by themselves. -/
inductive Shows (e : Element) (p : Point K) : Prop
  | circle {cx cy r : K} (tag : e.tag = "circle") (centreX : NumberAt e.attributes "cx" cx)
      (centreY : NumberAt e.attributes "cy" cy) (radius : NumberAt e.attributes "r" r)
      (inside : (p.1 - cx) ^ 2 + (p.2 - cy) ^ 2 ≤ r ^ 2)
  | rect {x y w h : K} (tag : e.tag = "rect") (left : NumberAt e.attributes "x" x)
      (top : NumberAt e.attributes "y" y) (width : NumberAt e.attributes "width" w)
      (height : NumberAt e.attributes "height" h) (across : x ≤ p.1 ∧ p.1 ≤ x + w)
      (down : y ≤ p.2 ∧ p.2 ≤ y + h)
  | text {x y : K} (tag : e.tag = "text") (left : NumberAt e.attributes "x" x)
      (base : NumberAt e.attributes "y" y)
      (across : x ≤ p.1 ∧ p.1 ≤ x + (e.text.map String.length).getD 0 * 9.6)
      (down : y - 12.8 ≤ p.2 ∧ p.2 ≤ y + 3.2)

/-- **No negative sizes**: neither a radius nor the sides of a rectangle. -/
structure Sized (K : Type) [Field K] [LinearOrder K] [NumberText K] (e : Element) : Prop where
  radius : e.tag = "circle" → ∀ r : K, NumberAt e.attributes "r" r → 0 ≤ r
  width : e.tag = "rect" → ∀ w : K, NumberAt e.attributes "width" w → 0 ≤ w
  height : e.tag = "rect" → ∀ h : K, NumberAt e.attributes "height" h → 0 ≤ h

/-! ### Transforms -/

/-- **How an element moves points**: a `translate` shifts them and a `scale` multiplies their
    coordinates.  An element without a transform, or with a text that denotes none, leaves
    them where they are. -/
inductive Moves (e : Element) : (Point K → Point K) → Prop
  | shift {s : String} {x y : K} (here : lookupEntry "transform" e.attributes = some s)
      (denotes : Transform.Denotes s (.translate x y)) : Moves e fun p => (p.1 + x, p.2 + y)
  | scaling {s : String} {k : K} (here : lookupEntry "transform" e.attributes = some s)
      (denotes : Transform.Denotes s (.scale k)) : Moves e fun p => (p.1 * k, p.2 * k)
  | stay (unread : ∀ s (t : Transform K), lookupEntry "transform" e.attributes = some s →
      ¬ Transform.Denotes s t) : Moves e id

/-- **Nothing is turned** by an element. -/
def Unturned (K : Type) [Field K] [LinearOrder K] [Angular K] [NumberText K] (e : Element) :
    Prop :=
  ∀ s (degrees : K), lookupEntry "transform" e.attributes = some s →
    ¬ Transform.Denotes s (.rotate degrees)

variable {e : Element} {p : Point K} {f : Point K → Point K}

/-- The shape of an element does not depend on its children. -/
theorem Shows.withChildren (h : e.Shows p) (children : List ElementId) :
    { e with children := children }.Shows p := by
  cases h with
  | circle tag centreX centreY radius inside => exact .circle tag centreX centreY radius inside
  | rect tag left top width height across down =>
    exact .rect tag left top width height across down
  | text tag left base across down => exact .text tag left base across down

/-- Nor does its transform. -/
theorem Moves.withChildren (h : e.Moves f) (children : List ElementId) :
    { e with children := children }.Moves f := by
  cases h with
  | shift here denotes => exact .shift here denotes
  | scaling here denotes => exact .scaling here denotes
  | stay unread => exact .stay unread

end Element

namespace Drawing

/-! ### What is shown -/

/-- **A way down** from `i` to `j`, and the composed moves of the elements strictly below `i`
    that are met on it, of which that of `j` is innermost. -/
inductive Way (d : Drawing) : ElementId → (Point K → Point K) → ElementId → Prop
  | stay (i : ElementId) : Way d i id i
  | down {i c j : ElementId} {e : Element} {f g : Point K → Point K} (child : d.HasChild i c)
      (here : d.get? c = some e) (moves : e.Moves f) (rest : Way d c g j) : Way d i (f ∘ g) j

/-- **The points that an element shows**: those of the shapes in its subtree, moved by the
    transforms of the elements strictly below it that are met on the way down. -/
def shown (d : Drawing) (i : ElementId) : Set (Point K) :=
  {p | ∃ f j e q, d.Way i f j ∧ d.get? j = some e ∧ e.Shows q ∧ p = f q}

/-- What a child shows, as its parent sees it. -/
def shownOutside (d : Drawing) (c : ElementId) : Set (Point K) :=
  {p | ∃ e f, d.get? c = some e ∧ e.Moves f ∧ p ∈ f '' d.shown c}

variable {d d' : Drawing} {i j c : ElementId} {e : Element}

/-- **The recursion of what is shown**: the points of the element's own shape, and what its
    children show. -/
theorem shown_of_get? (he : d.get? i = some e) :
    (d.shown i : Set (Point K)) = {p | e.Shows p} ∪ ⋃ c ∈ e.children, d.shownOutside c := by
  ext p
  simp only [Set.mem_union, Set.mem_iUnion, exists_prop]
  constructor
  · rintro ⟨f, j, e', q, hway, he', hq, rfl⟩
    -- the way to a shown point is empty, or begins with a child
    cases hway with
    | stay =>
      obtain rfl := Option.some.inj (he.symm.trans he')
      exact .inl hq
    | down hchild hc hmoves hrest =>
      exact .inr ⟨_, (hasChild_of_get? he).mp hchild, _, _, hc, hmoves, _,
        ⟨_, j, e', q, hrest, he', hq, rfl⟩, rfl⟩
  · rintro (hp | ⟨c, hmem, ec, f, hc, hmoves, _, ⟨g, j, e', q, hway, he', hq, rfl⟩, rfl⟩)
    · exact ⟨id, i, e, p, .stay i, he, hp, rfl⟩
    · have hchild : d.HasChild i c := (hasChild_of_get? he).mpr hmem
      exact ⟨f ∘ g, j, e', q, .down hchild hc hmoves hway, he', hq, rfl⟩

/-- An id without an element shows nothing. -/
theorem shown_of_absent (hi : d.get? i = none) : (d.shown i : Set (Point K)) = ∅ := by
  refine Set.eq_empty_iff_forall_notMem.mpr ?_
  rintro _ ⟨f, j, e', q, hway, he', -, -⟩
  cases hway with
  | stay =>
    rw [hi] at he'
    cases he'
  | down hchild =>
    exact absurd hchild.lt_size (Nat.not_lt_of_le (Array.getElem?_eq_none_iff.mp hi))

/-! ### Upright subtrees -/

/-- **An upright subtree**: no shape in it has a negative size, and nothing is turned by a
    transform strictly below its top. -/
structure Upright (K : Type) [Field K] [LinearOrder K] [Angular K] [NumberText K] (d : Drawing)
    (i : ElementId) : Prop where
  sized : ∀ j e, d.InSubtree i j → d.get? j = some e → e.Sized K
  unturned : ∀ j e, Relation.TransGen d.HasChild i j → d.get? j = some e → e.Unturned K

/-- What is below an upright top is upright. -/
theorem Upright.child (h : d.Upright K i) (hic : d.HasChild i c) : d.Upright K c where
  sized := fun j e hj => h.sized j e (.head hic hj)
  unturned := fun j e hj => h.unturned j e (.head hic hj)

/-! ### The order of siblings -/

/-- **Siblings in another order**: every element is the same, but for the order of its
    children. -/
structure Reorders (d d' : Drawing) : Prop where
  absent : ∀ j, d.get? j = none → d'.get? j = none
  present : ∀ j e, d.get? j = some e →
    ∃ children, children.Perm e.children ∧ d'.get? j = some { e with children := children }

namespace Reorders

/-- The order can be changed back. -/
theorem symm (h : d.Reorders d') : d'.Reorders d where
  absent := fun j hj => by
    cases he : d.get? j with
    | none => rfl
    | some e =>
      obtain ⟨children, -, he'⟩ := h.present j e he
      rw [hj] at he'
      cases he'
  present := fun j e' he' => by
    cases he : d.get? j with
    | none =>
      rw [h.absent j he] at he'
      cases he'
    | some e =>
      obtain ⟨children, hperm, hd'⟩ := h.present j e he
      obtain rfl := Option.some.inj (hd'.symm.trans he')
      exact ⟨e.children, hperm.symm, rfl⟩

/-- Children stay children. -/
theorem hasChild (h : d.Reorders d') (hic : d.HasChild i c) : d'.HasChild i c := by
  obtain ⟨e, he⟩ := exists_get?_of_lt hic.lt_size
  obtain ⟨children, hperm, he'⟩ := h.present i e he
  exact (hasChild_of_get? he').mpr (hperm.symm.subset ((hasChild_of_get? he).mp hic))

/-- The same ways lead down, and points are moved alike on them. -/
theorem way (h : d.Reorders d') {f : Point K → Point K} (hway : d.Way i f j) : d'.Way i f j := by
  induction hway with
  | stay i => exact .stay i
  | down hchild hc hmoves _ ih =>
    obtain ⟨children, -, hc'⟩ := h.present _ _ hc
    exact .down (h.hasChild hchild) hc' (hmoves.withChildren children) ih

/-- Nothing that is shown is lost. -/
theorem shown_subset (h : d.Reorders d') (i : ElementId) :
    (d.shown i : Set (Point K)) ⊆ d'.shown i := by
  rintro _ ⟨f, j, e, q, hway, he, hq, rfl⟩
  obtain ⟨children, -, he'⟩ := h.present j e he
  exact ⟨f, j, _, q, h.way hway, he', hq.withChildren children, rfl⟩

/-- **The order of siblings does not matter** for what is shown. -/
theorem shown_eq (h : d.Reorders d') (i : ElementId) :
    (d'.shown i : Set (Point K)) = d.shown i :=
  Set.Subset.antisymm (h.symm.shown_subset i) (h.shown_subset i)

/-- Later children are later in any order. -/
theorem wellFormed (h : d.Reorders d') (hd : d.WellFormed) : d'.WellFormed := by
  intro j q' hq' c hc
  obtain ⟨children, hperm, hq⟩ := h.symm.present j q' hq'
  obtain ⟨hlt, hsize⟩ := hd j _ hq c (hperm.symm.subset hc)
  obtain ⟨e, he⟩ := exists_get?_of_lt hsize
  obtain ⟨_, -, he'⟩ := h.present c e he
  exact ⟨hlt, lt_size_of_get? he'⟩

/-- Neither sizes nor transforms depend on the order. -/
theorem upright (h : d.Reorders d') (hup : d.Upright K i) : d'.Upright K i where
  sized := fun j e' hj he' => by
    obtain ⟨children, -, he⟩ := h.symm.present j e' he'
    obtain ⟨hradius, hwidth, hheight⟩ := hup.sized j { e' with children := children }
      (Relation.ReflTransGen.mono (fun _ _ => h.symm.hasChild) i j hj) he
    exact ⟨hradius, hwidth, hheight⟩
  unturned := fun j e' hj he' => by
    obtain ⟨children, -, he⟩ := h.symm.present j e' he'
    exact hup.unturned j { e' with children := children }
      (Relation.TransGen.mono (fun _ _ => h.symm.hasChild) i j hj) he

end Reorders

end Drawing

end BlockChart
