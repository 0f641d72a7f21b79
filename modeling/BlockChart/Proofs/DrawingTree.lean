import BlockChart.Drawing.Markup
import BlockChart.Proofs.Confinement
import Mathlib.Data.List.Basic

namespace BlockChart

/-!
# Drawings are trees

The arena of a drawing is a tree: parents come before their children, and every
element but the root stands once in the list of children of its parent and nowhere
else.  Such a drawing is written with nothing lost and nothing repeated.

* `Drawing.IsTree` is the shape; `IsTree.modify` and `IsTree.append` keep it, and
  `isTree_canvas` is where it starts; `Drawing.WellFormed` is the part that walks need;
* `Drawing.order` is document order from an element down; `IsTree.order_perm` says that
  from the root it goes through all elements, each once;
* `Markup.pieces` cuts the text of a tree at its start tags, which come in document
  order.
-/

namespace Drawing

/-! ### The shape -/

/-- **The arena is a tree.** -/
structure IsTree (d : Drawing) : Prop where
  /-- The root has no parent. -/
  root_parent : ∃ e, d.get? root = some e ∧ e.parent = none
  /-- Every other element has a parent before it, and is once among the children of that
      parent and never among those of another element. -/
  parent : ∀ i e, d.get? i = some e → i ≠ root → ∃ p < i, e.parent = some p ∧
    ∀ j q, d.get? j = some q → q.children.count i = if j = p then 1 else 0
  /-- Children are elements other than the root. -/
  children : ∀ j q, d.get? j = some q → ∀ i ∈ q.children, i ≠ root ∧ i < d.size
  /-- Children stand in the order in which they were added. -/
  increasing : ∀ j q, d.get? j = some q → q.children.Pairwise (· < ·)

/-- **Children are later elements**: they are in the arena, after the element in whose list
    they stand.  All walks down need no more than that. -/
def WellFormed (d : Drawing) : Prop :=
  ∀ j q, d.get? j = some q → ∀ i ∈ q.children, j < i ∧ i < d.size

variable {d : Drawing}

namespace IsTree

/-- A tree has a root. -/
theorem size_pos (h : d.IsTree) : 0 < d.size := by
  obtain ⟨e, he, -⟩ := h.root_parent
  exact lt_size_of_get? he

/-- A child comes after its parent. -/
theorem lt_of_mem_children (h : d.IsTree) {j i : ElementId} {q : Element}
    (hq : d.get? j = some q) (hi : i ∈ q.children) : j < i := by
  obtain ⟨hroot, hlt⟩ := h.children j q hq i hi
  obtain ⟨e, he⟩ := exists_get?_of_lt hlt
  obtain ⟨p, hp, -, hcount⟩ := h.parent i e he hroot
  have hpos : 0 < q.children.count i := List.count_pos_iff.mpr hi
  rw [hcount j q hq] at hpos
  by_cases hj : j = p
  · exact hj ▸ hp
  · rw [if_neg hj] at hpos
    exact absurd hpos (Nat.lt_irrefl 0)

/-- Trees are well-formed. -/
theorem wellFormed (h : d.IsTree) : d.WellFormed :=
  fun j q hq i hi => ⟨h.lt_of_mem_children hq hi, (h.children j q hq i hi).2⟩

/-- Writing to an element, links apart, keeps the shape. -/
theorem modify (h : d.IsTree) {c : ElementId} {change : Element → Element}
    (hparent : ∀ e, (change e).parent = e.parent)
    (hchildren : ∀ e, (change e).children = e.children) : (d.modify c change).IsTree := by
  have hsize : (d.modify c change).size = d.size := Array.size_modify
  -- every element of the changed drawing has the links that it had before
  have hback : ∀ i e', (d.modify c change).get? i = some e' →
      ∃ e, d.get? i = some e ∧ e'.parent = e.parent ∧ e'.children = e.children := by
    intro i e' he'
    obtain ⟨e, he, rfl | ⟨-, rfl⟩⟩ := get?_modify_cases he'
    · exact ⟨e', he, rfl, rfl⟩
    · exact ⟨e, he, hparent e, hchildren e⟩
  refine ⟨?_, fun i e' he' hi => ?_, fun j q' hq' i hi => ?_, fun j q' hq' => ?_⟩
  · obtain ⟨e, he, hnone⟩ := h.root_parent
    obtain ⟨e', he', hparent', -⟩ := keepsLinks_modify hparent hchildren root e he
    exact ⟨e', he', hparent'.trans hnone⟩
  · obtain ⟨e, he, hep, -⟩ := hback i e' he'
    obtain ⟨p, hp, hparent', hcount⟩ := h.parent i e he hi
    refine ⟨p, hp, hep.trans hparent', fun j q' hq' => ?_⟩
    obtain ⟨q, hq, -, hqc⟩ := hback j q' hq'
    rw [hqc]
    exact hcount j q hq
  · obtain ⟨q, hq, -, hqc⟩ := hback j q' hq'
    rw [hqc] at hi
    rw [hsize]
    exact h.children j q hq i hi
  · obtain ⟨q, hq, -, hqc⟩ := hback j q' hq'
    rw [hqc]
    exact h.increasing j q hq

/-- **Adding an element** below one that is there keeps the shape. -/
theorem append (h : d.IsTree) {p : ElementId} (hp : p < d.size) (tag : String) :
    (d.append p tag).2.IsTree := by
  have hfresh : ∀ j q, d.get? j = some q → d.size ∉ q.children := fun j q hq hmem =>
    Nat.lt_irrefl _ (h.children j q hq _ hmem).2
  refine ⟨?_, fun i e' he' hi => ?_, fun j q' hq' i hi => ?_, fun j q' hq' => ?_⟩
  -- the root keeps its element, and has no parent still
  · obtain ⟨e, he, hnone⟩ := h.root_parent
    have hlinks : d.KeepsLinks (d.append p tag).2 := keepsLinks_append hp
    obtain ⟨e', he', hparent, -⟩ := hlinks root e he
    exact ⟨e', he', hparent.trans hnone⟩
  · rcases get?_append_cases hp he' with ⟨rfl, rfl⟩ | ⟨e, he, rfl⟩
    · -- the new element is last among the children of `p`, and was in no list before
      refine ⟨p, hp, rfl, fun j q' hq' => ?_⟩
      rcases get?_append_cases hp hq' with ⟨rfl, rfl⟩ | ⟨q, hq, rfl⟩
      · rw [if_neg (Nat.ne_of_gt hp)]
        rfl
      · simp only [List.count_append, List.count_eq_zero_of_not_mem (hfresh j q hq)]
        by_cases hjp : j = p <;> simp [hjp]
    -- an element from before has the parent that it had, and is in no new list
    · obtain ⟨p', hp', hparent', hcount⟩ := h.parent i e he hi
      have hilt : i < d.size := lt_size_of_get? he
      refine ⟨p', hp', hparent', fun j q' hq' => ?_⟩
      rcases get?_append_cases hp hq' with ⟨rfl, rfl⟩ | ⟨q, hq, rfl⟩
      · rw [if_neg (Nat.ne_of_gt (Nat.lt_trans hp' hilt))]
        rfl
      · have hother : (if j = p then [d.size] else []).count i = 0 := by
          by_cases hjp : j = p <;> simp [hjp, Nat.ne_of_gt hilt]
        simp only [List.count_append, hother, Nat.add_zero]
        exact hcount j q hq
  -- a child was there before, or is the new element
  · rw [size_append]
    rcases get?_append_cases hp hq' with ⟨rfl, rfl⟩ | ⟨q, hq, rfl⟩
    · exact absurd hi (List.not_mem_nil)
    · rcases List.mem_append.mp hi with hi | hi
      · obtain ⟨hroot, hlt⟩ := h.children j q hq i hi
        exact ⟨hroot, Nat.lt_succ_of_lt hlt⟩
      · obtain ⟨-, hnew⟩ := List.mem_ite_nil_right.mp hi
        obtain rfl := List.mem_singleton.mp hnew
        exact ⟨Nat.ne_of_gt h.size_pos, Nat.lt_succ_self _⟩
  -- the lists still increase: the new element is the last one and the latest
  · rcases get?_append_cases hp hq' with ⟨rfl, rfl⟩ | ⟨q, hq, rfl⟩
    · exact List.Pairwise.nil
    · simp only [List.pairwise_append]
      refine ⟨h.increasing j q hq, ?_, fun a ha b hb => ?_⟩
      · by_cases hjp : j = p <;> simp [hjp]
      · obtain ⟨-, hnew⟩ := List.mem_ite_nil_right.mp hb
        obtain rfl := List.mem_singleton.mp hnew
        exact (h.children j q hq a ha).2

/-- Attributes, styles and contents are no links, so a tree stays one: the three writes below. -/
theorem setAttribute (h : d.IsTree) (c : ElementId) (name value : String) :
    (d.setAttribute c name value).IsTree :=
  h.modify (fun _ => rfl) (fun _ => rfl)

theorem setStyle (h : d.IsTree) (c : ElementId) (name value : String) :
    (d.setStyle c name value).IsTree :=
  h.modify (fun _ => rfl) (fun _ => rfl)

theorem setText (h : d.IsTree) (c : ElementId) (content : String) :
    (d.setText c content).IsTree :=
  h.modify (fun _ => rfl) (fun _ => rfl)

end IsTree

/-- A single element without parent and children is a tree. -/
theorem isTree_singleton (tag : String) : IsTree ⟨#[.plain tag none]⟩ := by
  have hget : ∀ i e, get? ⟨#[.plain tag none]⟩ i = some e → i = root ∧ e = .plain tag none := by
    intro i e he
    obtain rfl : i = 0 := Nat.lt_one_iff.mp (lt_size_of_get? he)
    exact ⟨rfl, (Option.some.inj he).symm⟩
  refine ⟨⟨_, rfl, rfl⟩, fun i e he hi => ?_, fun j q hq i hi => ?_, fun j q hq => ?_⟩
  · exact absurd (hget i e he).1 hi
  · obtain ⟨-, rfl⟩ := hget j q hq
    exact absurd hi List.not_mem_nil
  · obtain ⟨-, rfl⟩ := hget j q hq
    exact List.Pairwise.nil

/-- **The empty canvas is a tree.** -/
theorem isTree_canvas (width height : Float) : (canvas width height).IsTree := by
  have hsized := ((isTree_singleton "svg").setAttribute root "width" (chartText width)).setAttribute
    root "height" (chartText height)
  have hdrawn := hsized.append (p := root) hsized.size_pos "rect"
  exact (((hdrawn.setAttribute _ _ _).setAttribute _ _ _).setAttribute _ _ _).setAttribute _ _ _

/-! ### Document order -/

end Drawing

namespace Tree

mutual

/-- The elements of a tree with their ids, in document order. -/
def entries : Tree → List (ElementId × Element)
  | .node id e children => (id, e) :: entriesAll children

/-- The elements of several trees, one tree after the other. -/
def entriesAll : List Tree → List (ElementId × Element)
  | [] => []
  | t :: rest => t.entries ++ entriesAll rest

end

mutual

/-- The ids of the elements of a tree come in document order. -/
theorem map_fst_entries (t : Tree) : t.entries.map Prod.fst = t.order := by
  match t with
  | .node id e children => simp [entries, order, map_fst_entriesAll children]

theorem map_fst_entriesAll (ts : List Tree) : (entriesAll ts).map Prod.fst = orderAll ts := by
  match ts with
  | [] => rfl
  | t :: rest => simp [entriesAll, orderAll, map_fst_entries t, map_fst_entriesAll rest]

end

/-- The elements of several trees. -/
theorem mem_entriesAll {x : ElementId × Element} {ts : List Tree} :
    x ∈ entriesAll ts ↔ ∃ t ∈ ts, x ∈ t.entries := by
  induction ts with
  | nil => simp [entriesAll]
  | cons t rest ih => simp [entriesAll, ih]

end Tree

namespace Drawing

variable {d : Drawing}

/-- **Document order** from an element down: the ids of the tree below it. -/
def order (d : Drawing) (i : ElementId) : List ElementId :=
  ((d.tree? i).map Tree.order).getD []

/-- The tree below an element. -/
theorem tree?_of_get? {i : ElementId} {e : Element} (he : d.get? i = some e) :
    d.tree? i = some (.node i e (e.children.filterMap fun c =>
      if i < c then d.tree? c else none)) := by
  obtain ⟨hi, rfl⟩ := Array.getElem?_eq_some_iff.mp he
  rw [tree?, dif_pos hi]
  rfl

/-- **Induction along the unfolding**: what holds of a node whenever it holds of the trees
    below it, which are those of its children, holds of the tree below any element. -/
theorem tree?_induction {motive : Tree → Prop}
    (node : ∀ i e children, d.get? i = some e →
      (∀ t ∈ children, motive t ∧ ∃ c ∈ e.children, d.tree? c = some t) →
      motive (.node i e children))
    {i : ElementId} {t : Tree} (ht : d.tree? i = some t) : motive t := by
  by_cases hi : i < d.size
  · obtain ⟨e, he⟩ := exists_get?_of_lt hi
    rw [tree?_of_get? he] at ht
    obtain rfl := Option.some.inj ht
    -- the children that are not later have been left out of the tree
    refine node i e _ he fun t' ht' => ?_
    obtain ⟨c, hmem, hc⟩ := List.mem_filterMap.mp ht'
    by_cases hic : i < c
    · rw [if_pos hic] at hc
      exact ⟨tree?_induction node hc, c, hmem, hc⟩
    · rw [if_neg hic] at hc
      exact nomatch hc
  · rw [tree?, dif_neg hi] at ht
    exact nomatch ht
termination_by d.size - i
decreasing_by exact Nat.sub_lt_sub_left hi hic

/-- The tree below an element holds the elements of the arena. -/
theorem get?_of_mem_entries {i : ElementId} {t : Tree} (ht : d.tree? i = some t)
    {x : ElementId × Element} (hx : x ∈ t.entries) : d.get? x.1 = some x.2 := by
  refine tree?_induction (motive := fun t => ∀ x ∈ t.entries, d.get? x.1 = some x.2) ?_ ht x hx
  intro i e children he ih x hx
  rw [Tree.entries, List.mem_cons, Tree.mem_entriesAll] at hx
  rcases hx with rfl | ⟨t, ht, hx⟩
  · exact he
  · exact (ih t ht).1 x hx

/-- Document order of several children, of which some may have no tree. -/
theorem orderAll_filterMap (children : List ElementId) (tree : ElementId → Option Tree) :
    Tree.orderAll (children.filterMap tree)
      = children.flatMap fun c => ((tree c).map Tree.order).getD [] := by
  induction children with
  | nil => rfl
  | cons c rest ih =>
    cases hc : tree c with
    | none => simp [hc, ih]
    | some t => simp [hc, ih, Tree.orderAll]

/-- Document order goes from an element to its children, one after the other. -/
theorem order_of_get? {i : ElementId} {e : Element} (he : d.get? i = some e) :
    d.order i = i :: e.children.flatMap fun c => if i < c then d.order c else [] := by
  have hchild : ∀ c, ((if i < c then d.tree? c else none).map Tree.order).getD []
      = if i < c then d.order c else [] := by
    intro c
    by_cases hc : i < c
    · rw [if_pos hc, if_pos hc]
      rfl
    · rw [if_neg hc, if_neg hc]
      rfl
  unfold order
  rw [tree?_of_get? he]
  simp only [Option.map_some, Option.getD_some, Tree.order, orderAll_filterMap, hchild]
  rfl

/-- From an unknown id there is nothing to go through. -/
theorem order_of_size_le {i : ElementId} (hi : d.size ≤ i) : d.order i = [] := by
  have hnone : d.tree? i = none := by rw [tree?, dif_neg (Nat.not_lt_of_le hi)]
  rw [order, hnone, Option.map_none, Option.getD_none]

/-- Below an element there are only later ones, and all of them are in the arena. -/
theorem bounds_of_mem_order {i x : ElementId} (hx : x ∈ d.order i) : i ≤ x ∧ x < d.size := by
  by_cases hi : i < d.size
  · obtain ⟨e, he⟩ := exists_get?_of_lt hi
    rw [order_of_get? he, List.mem_cons, List.mem_flatMap] at hx
    rcases hx with rfl | ⟨c, -, hx⟩
    · exact ⟨Nat.le_refl _, hi⟩
    · obtain ⟨hc, hx⟩ := List.mem_ite_nil_right.mp hx
      obtain ⟨hcx, hlt⟩ := bounds_of_mem_order hx
      exact ⟨Nat.le_trans (Nat.le_of_lt hc) hcx, hlt⟩
  · rw [order_of_size_le (Nat.le_of_not_lt hi)] at hx
    exact absurd hx List.not_mem_nil
termination_by d.size - i
decreasing_by exact Nat.sub_lt_sub_left hi hc

/-- **The recursion of document order** at an element whose children are later ones. -/
theorem order_of_later {i : ElementId} {e : Element} (he : d.get? i = some e)
    (hlater : ∀ c ∈ e.children, i < c) : d.order i = i :: e.children.flatMap d.order := by
  rw [order_of_get? he]
  congr 1
  exact List.flatMap_congr fun c hc => if_pos (hlater c hc)

namespace WellFormed

/-- In a well-formed drawing every element has the recursion. -/
theorem order_eq (h : d.WellFormed) {i : ElementId} {e : Element} (he : d.get? i = some e) :
    d.order i = i :: e.children.flatMap d.order :=
  order_of_later he fun c hc => (h i e he c hc).1

/-- Where every `f c` has as many `x` as `p`, and one more if `c` is `x`, so have all of
    them together. -/
private theorem count_flatMap_add {x p : ElementId} {f : ElementId → List ElementId}
    {l : List ElementId}
    (h : ∀ c ∈ l, (f c).count x = (if c = x then 1 else 0) + (f c).count p) :
    (l.flatMap f).count x = l.count x + (l.flatMap f).count p := by
  induction l with
  | nil => rfl
  | cons c rest ih =>
    have hc := h c List.mem_cons_self
    have hrest := ih fun c' hc' => h c' (List.mem_cons_of_mem _ hc')
    simp only [List.flatMap_cons, List.count_append, List.count_cons, beq_iff_eq, hc, hrest]
    omega

/-- An element is met as often as its parent, and once more if the walk starts at it. -/
theorem count_order (h : d.WellFormed) {x p : ElementId}
    (hcount : ∀ j q, d.get? j = some q → q.children.count x = if j = p then 1 else 0)
    {i : ElementId} (hi : i < d.size) :
    (d.order i).count x = (if i = x then 1 else 0) + (d.order i).count p := by
  obtain ⟨e, he⟩ := exists_get?_of_lt hi
  -- an occurrence below `i` is a child of `i`, or stands in the order of a child
  have hbelow : (e.children.flatMap d.order).count x
      = e.children.count x + (e.children.flatMap d.order).count p := by
    refine count_flatMap_add fun c hc => ?_
    have hlt : i < c := (h i e he c hc).1
    exact count_order h hcount (h i e he c hc).2
  rw [h.order_eq he, List.count_cons, List.count_cons, hbelow, hcount i e he]
  simp only [beq_iff_eq]
  omega
termination_by d.size - i
decreasing_by exact Nat.sub_lt_sub_left hi hlt

end WellFormed

namespace IsTree

/-- The walk from the root meets every element once. -/
theorem count_order_root (h : d.IsTree) {x : ElementId} (hx : x < d.size) :
    (d.order root).count x = 1 := by
  induction x using Nat.strongRecOn with
  | ind x ih =>
    by_cases hroot : x = root
    · -- all that comes after the root is later than the root
      subst hroot
      obtain ⟨e, he, -⟩ := h.root_parent
      have hnot : root ∉ e.children.flatMap d.order := by
        intro hmem
        obtain ⟨c, hc, hmem⟩ := List.mem_flatMap.mp hmem
        exact absurd (h.lt_of_mem_children he hc)
          (Nat.not_lt_of_le (bounds_of_mem_order hmem).1)
      rw [h.wellFormed.order_eq he, List.count_cons_self, List.count_eq_zero_of_not_mem hnot]
    -- an element stands where its parent does, which is an earlier one
    · obtain ⟨e, he⟩ := exists_get?_of_lt hx
      obtain ⟨p, hp, -, hcount⟩ := h.parent x e he hroot
      rw [h.wellFormed.count_order (i := root) hcount h.size_pos, if_neg (Ne.symm hroot),
        Nat.zero_add]
      exact ih p hp (Nat.lt_trans hp hx)

/-- **Document order from the root** goes through all elements, each once. -/
theorem order_perm (h : d.IsTree) : (d.order root).Perm (List.range d.size) := by
  rw [List.perm_iff_count]
  intro x
  rw [List.count_range]
  by_cases hx : x < d.size
  · rw [if_pos hx, h.count_order_root hx]
  · rw [if_neg hx, List.count_eq_zero]
    exact fun hmem => hx (bounds_of_mem_order hmem).2

end IsTree

end Drawing

/-! ### Start tags -/

namespace Markup

/-- A piece of the text of a tree: the start tag of an element but for its last bracket,
    or what stands between two start tags. -/
inductive Piece where
  | start (id : ElementId) (e : Element)
  | between (s : String)

namespace Piece

/-- The text of a piece. -/
def text : Piece → String
  | start id e => opening id e
  | between s => s

/-- The element whose start tag a piece is. -/
def started? : Piece → Option (ElementId × Element)
  | start id e => some (id, e)
  | between _ => none

@[simp] theorem started?_start (id : ElementId) (e : Element) :
    (start id e).started? = some (id, e) := rfl

@[simp] theorem started?_between (s : String) : (between s).started? = none := rfl

end Piece

mutual

/-- **The text of an element cut at the start tags.** -/
def pieces (level : Nat) : Tree → List Piece
  | .node id e children =>
    match e.text, children with
    | none, [] => [.start id e, .between " />"]
    | some s, [] =>
      [.start id e,
        .between (">" ++ String.join (s.toList.map contentChar) ++ "</" ++ e.tag ++ ">")]
    | none, first :: rest =>
      [.start id e, .between ">"] ++ piecesAll (level + 1) (first :: rest)
        ++ [.between (newline level ++ "</" ++ e.tag ++ ">")]
    | some s, first :: rest =>
      [.start id e, .between (">" ++ String.join (s.toList.map contentChar))]
        ++ pieces (level + 1) first ++ piecesAll (level + 1) rest
        ++ [.between (newline level ++ "</" ++ e.tag ++ ">")]

/-- The texts of elements that each begin a line, cut at the start tags. -/
def piecesAll (level : Nat) : List Tree → List Piece
  | [] => []
  | t :: rest => .between (newline level) :: pieces level t ++ piecesAll level rest

end

mutual

/-- The pieces are the whole text. -/
theorem join_pieces (level : Nat) (t : Tree) :
    String.join ((pieces level t).map Piece.text) = element level t := by
  match t with
  | .node id e children =>
    match htext : e.text, children with
    | none, [] => simp [pieces, element, htext, Piece.text]
    | some s, [] => simp [pieces, element, htext, Piece.text, String.append_assoc]
    | none, first :: rest =>
      have hbelow := join_piecesAll (level + 1) (first :: rest)
      simp [pieces, element, htext, Piece.text, String.append_assoc, hbelow]
    -- the first child stands on the line of the text, the others on lines of their own
    | some s, first :: rest =>
      have hfirst := join_pieces (level + 1) first
      have hrest := join_piecesAll (level + 1) rest
      simp [pieces, element, htext, Piece.text, String.append_assoc, hfirst, hrest]

theorem join_piecesAll (level : Nat) (ts : List Tree) :
    String.join ((piecesAll level ts).map Piece.text) = elements level ts := by
  match ts with
  | [] => rfl
  | t :: rest =>
    have ht := join_pieces level t
    have hrest := join_piecesAll level rest
    simp [piecesAll, elements, Piece.text, String.append_assoc, ht, hrest]

end

mutual

/-- The start tags are those of the elements in document order. -/
theorem started_pieces (level : Nat) (t : Tree) :
    (pieces level t).filterMap Piece.started? = t.entries := by
  match t with
  | .node id e children =>
    match htext : e.text, children with
    | none, [] => simp [pieces, htext, Tree.entries, Tree.entriesAll]
    | some s, [] => simp [pieces, htext, Tree.entries, Tree.entriesAll]
    | none, first :: rest =>
      have hbelow := started_piecesAll (level + 1) (first :: rest)
      simp [pieces, htext, List.filterMap_cons, Tree.entries, hbelow]
    | some s, first :: rest =>
      have hfirst := started_pieces (level + 1) first
      have hrest := started_piecesAll (level + 1) rest
      simp [pieces, htext, List.filterMap_cons, Tree.entries, Tree.entriesAll, hfirst, hrest]

theorem started_piecesAll (level : Nat) (ts : List Tree) :
    (piecesAll level ts).filterMap Piece.started? = Tree.entriesAll ts := by
  match ts with
  | [] => rfl
  | t :: rest =>
    have ht := started_pieces level t
    have hrest := started_piecesAll level rest
    simp [piecesAll, List.filterMap_cons, Tree.entriesAll, ht, hrest]

end

end Markup

/-! ### Nothing lost, nothing repeated -/

namespace Drawing

/-- The text of a drawing cut at the start tags. -/
def pieces (d : Drawing) : List Markup.Piece :=
  ((d.tree? root).map (Markup.pieces 0)).getD []

/-- The start tags stand in document order. -/
theorem started_pieces_eq_order (d : Drawing) :
    (d.pieces.filterMap Markup.Piece.started?).map Prod.fst = d.order root := by
  unfold pieces order
  cases d.tree? root with
  | none => rfl
  | some t =>
    show ((Markup.pieces 0 t).filterMap _).map _ = t.order
    rw [Markup.started_pieces, Tree.map_fst_entries]

/-- The pieces make up the text, whatever the shape of the drawing. -/
theorem join_pieces_eq_svg (d : Drawing) :
    String.join (d.pieces.map Markup.Piece.text) = d.svg := by
  unfold pieces svg
  cases d.tree? root with
  | none => rfl
  | some t => exact Markup.join_pieces 0 t

/-- **Every element is written once**: the start tags in the text of the drawing are
    those of its elements, each once. -/
structure WrittenOnce (d : Drawing) : Prop where
  /-- The pieces make up the text. -/
  text : String.join (d.pieces.map Markup.Piece.text) = d.svg
  /-- Every id of the arena has one start tag. -/
  ids : ((d.pieces.filterMap Markup.Piece.started?).map Prod.fst).Perm (List.range d.size)
  /-- It is written with what the arena holds under the id. -/
  elements : ∀ x ∈ d.pieces.filterMap Markup.Piece.started?, d.get? x.1 = some x.2

/-- **A tree is written with nothing lost and nothing repeated.** -/
theorem IsTree.writtenOnce {d : Drawing} (h : d.IsTree) : d.WrittenOnce where
  text := join_pieces_eq_svg d
  ids := by
    rw [started_pieces_eq_order]
    exact h.order_perm
  elements := by
    obtain ⟨e, he, -⟩ := h.root_parent
    obtain ⟨t, ht⟩ : ∃ t, d.tree? root = some t := ⟨_, tree?_of_get? he⟩
    have hpieces : d.pieces = Markup.pieces 0 t := by rw [pieces, ht]; rfl
    rw [hpieces, Markup.started_pieces]
    exact fun x hx => get?_of_mem_entries ht hx

end Drawing

end BlockChart
