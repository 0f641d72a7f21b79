import BlockChart.Proofs.DrawingTree
import Mathlib.Data.List.Induction

namespace BlockChart.Drawing

/-!
# Walks down a drawing

Boxes and texts are computed by going from an element to its children, and so on down;
searching keeps a list of the elements still to visit.  Both end if no way down leads
back to where it came from.  Elements may be added below any id, though, also below one
that no element has.  Such an element is in no list of children, with one exception: it is
added to the arena before its parent is looked up, so if the unknown id is the very one
that it gets, it becomes its own child.

* `Write` is one write to a drawing, with any id, and `after` a sequence of them;
* `HasChild` is what the lists of children say, `SelfParented` the exception;
* `Downward` is the invariant; `Downward.append` and `Downward.modify` keep it;
* `WalkEnds` says that the recursion from an element ends, `Visits` what the search visits;
  the two come to the same, see `exists_visits_iff`;
* `after_canvas_walks` — from every element that is not its own parent, all walks end.
-/

/-! ### Writes -/

/-- A write to a drawing, with the id that it is given. -/
inductive Write where
  | append (parent : ElementId) (tag : String)
  | setAttribute (id : ElementId) (name value : String)
  | setStyle (id : ElementId) (name value : String)
  | setText (id : ElementId) (content : String)

/-- The drawing after a write. -/
def Write.apply (d : Drawing) : Write → Drawing
  | append parent tag => (d.append parent tag).2
  | setAttribute id name value => d.setAttribute id name value
  | setStyle id name value => d.setStyle id name value
  | setText id content => d.setText id content

/-- The drawing after some writes. -/
def after (d : Drawing) (writes : List Write) : Drawing :=
  writes.foldl Write.apply d

/-- One more write at the end. -/
theorem after_concat (d : Drawing) (writes : List Write) (w : Write) :
    d.after (writes ++ [w]) = w.apply (d.after writes) := by
  simp only [after, List.foldl_append, List.foldl_cons, List.foldl_nil]

/-! ### Links -/

/-- The parent that the element of an id names. -/
def parentOf (d : Drawing) (i : ElementId) : Option ElementId :=
  (d.get? i).bind Element.parent

/-- The children of the element of an id; an unknown id has none. -/
def childrenOf (d : Drawing) (i : ElementId) : List ElementId :=
  ((d.get? i).map Element.children).getD []

/-- Element `c` stands in the list of children of `p`. -/
def HasChild (d : Drawing) (p c : ElementId) : Prop :=
  c ∈ d.childrenOf p

/-- The element has been added below the id that it got itself. -/
def SelfParented (d : Drawing) (i : ElementId) : Prop :=
  d.parentOf i = some i

variable {d : Drawing} {i p c : ElementId} {e : Element} {tag : String}

/-- The parent that the element itself names. -/
theorem parentOf_of_get? (he : d.get? i = some e) : d.parentOf i = e.parent := by
  rw [parentOf, he, Option.bind_some]

/-- The children that the element itself lists. -/
theorem childrenOf_of_get? (he : d.get? i = some e) : d.childrenOf i = e.children := by
  rw [childrenOf, he, Option.map_some, Option.getD_some]

/-- Beyond the end there are no elements. -/
theorem get?_of_size_le (hi : d.size ≤ i) : d.get? i = none :=
  Array.getElem?_eq_none hi

theorem childrenOf_of_size_le (hi : d.size ≤ i) : d.childrenOf i = [] := by
  rw [childrenOf, get?_of_size_le hi, Option.map_none, Option.getD_none]

section Modify

variable {change : Element → Element}

/-- A change that spares the parent. -/
theorem parentOf_modify (hparent : ∀ e, (change e).parent = e.parent) :
    (d.modify c change).parentOf i = d.parentOf i := by
  unfold parentOf
  by_cases hi : i = c
  · subst hi
    rw [get?_modify_self, Option.bind_map]
    congr 1
    exact funext hparent
  · rw [get?_modify_of_ne hi]

/-- A change that spares the children. -/
theorem childrenOf_modify (hchildren : ∀ e, (change e).children = e.children) :
    (d.modify c change).childrenOf i = d.childrenOf i := by
  unfold childrenOf
  by_cases hi : i = c
  · subst hi
    rw [get?_modify_self, Option.map_map]
    congr 2
    exact funext hchildren
  · rw [get?_modify_of_ne hi]

end Modify

/-- The elements once the new one is there and its parent has not been looked up yet. -/
private theorem get?_push (d : Drawing) (e : Element) (i : ElementId) :
    get? ⟨d.elements.push e⟩ i = if i = d.size then some e else d.get? i :=
  Array.getElem?_push

/-- The new element names the parent that it was given, known or not. -/
theorem parentOf_append (d : Drawing) (p : ElementId) (tag : String) (i : ElementId) :
    (d.append p tag).2.parentOf i = if i = d.size then some p else d.parentOf i := by
  have hpushed : (d.append p tag).2.parentOf i
      = parentOf ⟨d.elements.push (.plain tag (some p))⟩ i := parentOf_modify fun _ => rfl
  rw [hpushed, parentOf, get?_push]
  by_cases hi : i = d.size
  · rw [if_pos hi, if_pos hi]
    rfl
  · rw [if_neg hi, if_neg hi, parentOf]

/-- **The lists of children after an append** below any id: the parent gets the new element
    as its last child, if the parent is there — or is the new element itself. -/
theorem childrenOf_append (d : Drawing) (p : ElementId) (tag : String) (i : ElementId) :
    (d.append p tag).2.childrenOf i
      = d.childrenOf i ++ if i = p ∧ p ≤ d.size then [d.size] else [] := by
  have hpushed : childrenOf ⟨d.elements.push (.plain tag (some p))⟩ i = d.childrenOf i := by
    -- the pushed element has no children, and neither had its id before
    rw [childrenOf, get?_push]
    by_cases hi : i = d.size
    · rw [if_pos hi, childrenOf_of_size_le (Nat.le_of_eq hi.symm)]
      rfl
    · rw [if_neg hi, childrenOf]
  by_cases hip : i = p
  · subst hip
    -- a parent at the very end is the new element itself
    by_cases hi : i ≤ d.size
    · have hlt : i < size ⟨d.elements.push (.plain tag (some i))⟩ := by
        rw [size, Array.size_push]
        exact Nat.lt_succ_of_le hi
      obtain ⟨e, he⟩ := exists_get?_of_lt hlt
      have hnew : (d.append i tag).2.get? i
          = some { e with children := e.children ++ [d.size] } := by
        refine get?_modify_self.trans ?_
        rw [he, Option.map_some]
      rw [if_pos ⟨rfl, hi⟩, childrenOf_of_get? hnew, ← hpushed, childrenOf_of_get? he]
    · have hpast : (d.append i tag).2.size ≤ i := by
        rw [size_append]
        exact Nat.lt_of_not_le hi
      rw [if_neg fun h => hi h.2, List.append_nil, childrenOf_of_size_le hpast,
        childrenOf_of_size_le (Nat.le_of_not_le hi)]
  · rw [if_neg fun h => hip h.1, List.append_nil, ← hpushed]
    unfold childrenOf
    congr 2
    exact get?_modify_of_ne hip

/-! ### The invariant -/

/-- **Lists of children lead down**: every child is in the arena, names the element in whose
    list it stands as its parent, and does not come before it. -/
structure Downward (d : Drawing) : Prop where
  nonempty : 0 < d.size
  root_parent : d.parentOf root = none
  child : ∀ p c, d.HasChild p c → c < d.size ∧ d.parentOf c = some p ∧ p ≤ c
  /-- An element that is its own parent is its own child. -/
  self : ∀ i, d.SelfParented i → d.HasChild i i

/-- The invariant depends on the links only. -/
theorem Downward.of_links {d' : Drawing} (h : d.Downward) (hsize : d'.size = d.size)
    (hparent : ∀ i, d'.parentOf i = d.parentOf i)
    (hchildren : ∀ i, d'.childrenOf i = d.childrenOf i) : d'.Downward where
  nonempty := hsize ▸ h.nonempty
  root_parent := (hparent root).trans h.root_parent
  child := fun p c hc => by
    rw [HasChild, hchildren] at hc
    rw [hsize, hparent]
    exact h.child p c hc
  self := fun i hi => by
    rw [SelfParented, hparent] at hi
    rw [HasChild, hchildren]
    exact h.self i hi

/-- A change that spares both keeps the invariant. -/
theorem Downward.modify (h : d.Downward) {change : Element → Element}
    (hparent : ∀ e, (change e).parent = e.parent)
    (hchildren : ∀ e, (change e).children = e.children) : (d.modify c change).Downward :=
  h.of_links Array.size_modify (fun _ => parentOf_modify hparent)
    fun _ => childrenOf_modify hchildren

/-- **Adding an element** below any id keeps the invariant. -/
theorem Downward.append (h : d.Downward) (p : ElementId) (tag : String) :
    (d.append p tag).2.Downward where
  nonempty := by
    rw [size_append]
    exact Nat.succ_pos _
  root_parent := by
    have hroot : root ≠ d.size := Nat.ne_of_lt h.nonempty
    rw [parentOf_append, if_neg hroot, h.root_parent]
  child := fun q c hc => by
    rw [HasChild, childrenOf_append, List.mem_append] at hc
    rw [size_append, parentOf_append]
    -- the child was one before, or is the new element
    rcases hc with hold | hnew
    · obtain ⟨hlt, hparent, hle⟩ := h.child q c hold
      rw [if_neg (Nat.ne_of_lt hlt)]
      exact ⟨Nat.lt_succ_of_lt hlt, hparent, hle⟩
    · obtain ⟨⟨rfl, hle⟩, hc⟩ := List.mem_ite_nil_right.mp hnew
      obtain rfl := List.mem_singleton.mp hc
      exact ⟨Nat.lt_succ_self _, if_pos rfl, hle⟩
  self := fun i hi => by
    rw [SelfParented, parentOf_append] at hi
    rw [HasChild, childrenOf_append, List.mem_append]
    by_cases hnew : i = d.size
    · -- added below the id that it got
      rw [if_pos hnew, Option.some_inj] at hi
      right
      rw [if_pos ⟨hi.symm, Nat.le_of_eq (hi.trans hnew)⟩, hnew]
      exact List.mem_singleton.mpr rfl
    · rw [if_neg hnew] at hi
      exact .inl (h.self i hi)

/-- A tree has no element that is its own parent. -/
theorem IsTree.not_selfParented (h : d.IsTree) (i : ElementId) : ¬ d.SelfParented i := by
  intro hi
  obtain ⟨e, he, hself⟩ := Option.bind_eq_some_iff.mp hi
  by_cases hroot : i = root
  · obtain ⟨e', he', hnone⟩ := h.root_parent
    rw [hroot, he', Option.some_inj] at he
    rw [← he, hnone] at hself
    cases hself
  · obtain ⟨p, hp, hparent, -⟩ := h.parent i e he hroot
    rw [hself, Option.some_inj] at hparent
    exact Nat.ne_of_gt hp hparent

/-- In a tree the lists of children lead down. -/
theorem IsTree.downward (h : d.IsTree) : d.Downward where
  nonempty := h.size_pos
  root_parent := by
    obtain ⟨e, he, hnone⟩ := h.root_parent
    rw [parentOf_of_get? he, hnone]
  child := fun p c hc => by
    by_cases hp : p < d.size
    · obtain ⟨q, hq⟩ := exists_get?_of_lt hp
      rw [HasChild, childrenOf_of_get? hq] at hc
      obtain ⟨hroot, hlt⟩ := h.children p q hq c hc
      obtain ⟨e, he⟩ := exists_get?_of_lt hlt
      obtain ⟨p', hp', hparent, hcount⟩ := h.parent c e he hroot
      -- the child stands in the list of one element only, which is its parent
      have hpos : 0 < q.children.count c := List.count_pos_iff.mpr hc
      rw [hcount p q hq] at hpos
      obtain rfl : p = p' := by
        by_contra hne
        rw [if_neg hne] at hpos
        exact Nat.lt_irrefl 0 hpos
      exact ⟨hlt, (parentOf_of_get? he).trans hparent, Nat.le_of_lt hp'⟩
    · rw [HasChild, childrenOf_of_size_le (Nat.le_of_not_lt hp)] at hc
      exact absurd hc List.not_mem_nil
  self := fun i hi => absurd hi (h.not_selfParented i)

/-- **One write**, with any id, keeps the invariant. -/
theorem Downward.apply (h : d.Downward) (w : Write) : (w.apply d).Downward := by
  cases w with
  | append parent tag => exact h.append parent tag
  | setAttribute id name value => exact h.modify (fun _ => rfl) fun _ => rfl
  | setStyle id name value => exact h.modify (fun _ => rfl) fun _ => rfl
  | setText id content => exact h.modify (fun _ => rfl) fun _ => rfl

/-- **Any writes** keep the invariant. -/
theorem Downward.after (h : d.Downward) (writes : List Write) : (d.after writes).Downward := by
  induction writes generalizing d with
  | nil => exact h
  | cons w rest ih => exact ih (h.apply w)

namespace Downward

/-- A child comes after its parent, unless the two are one. -/
theorem lt_or_self (h : d.Downward) (hpc : d.HasChild p c) :
    p < c ∨ p = c ∧ d.SelfParented p := by
  obtain ⟨-, hparent, hle⟩ := h.child p c hpc
  rcases Nat.lt_or_eq_of_le hle with hlt | heq
  · exact .inl hlt
  · exact .inr ⟨heq, by rw [SelfParented, ← hparent, heq]⟩

/-- Only an element that is its own parent is its own descendant. -/
theorem below_self_iff (h : d.Downward) :
    Relation.TransGen d.HasChild i i ↔ d.SelfParented i := by
  -- the ids never fall on the way down, so a way back has one step only
  have hdown : ∀ {j}, Relation.TransGen d.HasChild i j → i < j ∨ i = j ∧ d.SelfParented i := by
    intro j hij
    induction hij with
    | single hstep => exact h.lt_or_self hstep
    | tail _ hstep ih =>
      rcases ih with hlt | ⟨rfl, hself⟩
      · exact .inl (Nat.lt_of_lt_of_le hlt (h.child _ _ hstep).2.2)
      · exact h.lt_or_self hstep
  constructor
  · intro hii
    rcases hdown hii with hlt | ⟨-, hself⟩
    · exact absurd hlt (Nat.lt_irrefl i)
    · exact hself
  · intro hself
    exact .single (h.self i hself)

end Downward

/-! ### Walks -/

/-- **The recursion ends** that goes from an element to each of its children, and from each
    of these to its own. -/
def WalkEnds (d : Drawing) (i : ElementId) : Prop :=
  Acc (fun c p => d.HasChild p c) i

/-- **The search ends** that takes the first of the ids still to visit off the list and puts
    its children in its place; the second list holds the ids in the order of their visits. -/
inductive Visits (d : Drawing) : List ElementId → List ElementId → Prop
  | done : Visits d [] []
  | next {i : ElementId} {rest visited : List ElementId}
      (others : Visits d (d.childrenOf i ++ rest) visited) : Visits d (i :: rest) (i :: visited)

/-- Ids from which the recursion ends can be visited before others. -/
theorem exists_visits_append {ids rest : List ElementId} (hids : ∀ i ∈ ids, d.WalkEnds i)
    (hrest : ∃ visited, d.Visits rest visited) : ∃ visited, d.Visits (ids ++ rest) visited := by
  induction ids with
  | nil => exact hrest
  | cons i ids ih =>
    have htail := ih fun j hj => hids j (List.mem_cons_of_mem i hj)
    have hi := hids i List.mem_cons_self
    clear hids ih
    -- along the recursion from `i`: its children are visited before `ids`, one by one
    rw [List.cons_append]
    generalize ids ++ rest = others at htail ⊢
    induction hi generalizing others with
    | intro i _ ih =>
      suffices hbelow : ∃ visited, d.Visits (d.childrenOf i ++ others) visited by
        obtain ⟨visited, hvisited⟩ := hbelow
        exact ⟨i :: visited, .next hvisited⟩
      have hchildren : ∀ c ∈ d.childrenOf i, d.HasChild i c := fun _ hc => hc
      generalize d.childrenOf i = children at hchildren
      induction children with
      | nil => exact htail
      | cons c children ihc =>
        exact ih c (hchildren c List.mem_cons_self) _
          (ihc fun c' hc' => hchildren c' (List.mem_cons_of_mem c hc'))

/-- **Searching ends where the recursion does**: from all the ids still to visit. -/
theorem exists_visits_iff {pending : List ElementId} :
    (∃ visited, d.Visits pending visited) ↔ ∀ i ∈ pending, d.WalkEnds i := by
  constructor
  · rintro ⟨visited, hvisits⟩
    induction hvisits with
    | done => exact List.forall_mem_nil _
    | @next i rest _ _ ih =>
      rw [List.forall_mem_append] at ih
      exact List.forall_mem_cons.mpr ⟨Acc.intro i fun c hc => ih.1 c hc, ih.2⟩
  · intro hends
    obtain ⟨visited, hvisits⟩ := exists_visits_append hends ⟨[], .done⟩
    exact ⟨visited, by rwa [List.append_nil] at hvisits⟩

namespace Downward

/-- From an element that is not its own parent the walk ends, by going through later and later ids.
    -/
theorem walkEnds (h : d.Downward) (i : ElementId) (hself : ¬ d.SelfParented i) :
    d.WalkEnds i := by
  refine Acc.intro i fun c hc => ?_
  -- a child is later, and names another element as its parent
  have hlt : i < c := (h.lt_or_self hc).resolve_right fun heq => hself heq.2
  obtain ⟨hsize, hparent, -⟩ := h.child i c hc
  refine h.walkEnds c fun hcself => ?_
  rw [SelfParented, hparent, Option.some_inj] at hcself
  exact Nat.ne_of_lt hlt hcself
termination_by d.size - i
decreasing_by exact Nat.sub_lt_sub_left (Nat.lt_trans hlt hsize) hlt

/-- **The recursion ends from every element but those that are their own parents.** -/
theorem walkEnds_iff (h : d.Downward) : d.WalkEnds i ↔ ¬ d.SelfParented i := by
  constructor
  · intro hends hself
    have hchild := h.self i hself
    induction hends with
    | intro i _ ih => exact ih i hchild hself hchild
  · exact h.walkEnds i

/-- Where the recursion ends, the tree below an element has all of its children. -/
theorem tree?_eq (h : d.Downward) (he : d.get? i = some e) (hself : ¬ d.SelfParented i) :
    d.tree? i = some (.node i e (e.children.filterMap d.tree?)) := by
  rw [tree?_of_get? he]
  congr 2
  refine List.filterMap_congr fun c hc => ?_
  have hchild : d.HasChild i c := by rwa [HasChild, childrenOf_of_get? he]
  exact if_pos ((h.lt_or_self hchild).resolve_right fun heq => hself heq.2)

/-- The root has no parent, so it is not its own. -/
theorem not_selfParented_root (h : d.Downward) : ¬ d.SelfParented root := by
  rw [SelfParented, h.root_parent]
  exact fun hroot => by cases hroot

end Downward

/-! ### Where the exceptions come from -/

/-- An element becomes its own parent when it is added below the id that it gets. -/
theorem selfParented_apply_iff (h : d.Downward) (w : Write) :
    (w.apply d).SelfParented i ↔
      (∃ tag, w = .append i tag ∧ d.size = i) ∨ d.SelfParented i := by
  -- a write that adds nothing leaves the parents alone
  have hkept : ∀ d' : Drawing, d'.parentOf i = d.parentOf i → (∀ tag, w ≠ .append i tag) →
      (d'.SelfParented i ↔ (∃ tag, w = .append i tag ∧ d.size = i) ∨ d.SelfParented i) := by
    intro d' hparent hw
    rw [SelfParented, hparent]
    exact ⟨.inr, fun hor => hor.resolve_left fun ⟨tag, heq, _⟩ => hw tag heq⟩
  cases w with
  | append p tag =>
    rw [Write.apply, SelfParented, parentOf_append]
    by_cases hi : i = d.size
    · have hfresh : ¬ d.SelfParented i := fun hself =>
        Nat.ne_of_lt (h.child i i (h.self i hself)).1 hi
      rw [if_pos hi, Option.some_inj]
      constructor
      · rintro rfl
        exact .inl ⟨tag, rfl, hi.symm⟩
      · intro hor
        obtain ⟨tag', heq, -⟩ := hor.resolve_right hfresh
        exact (Write.append.inj heq).1
    · rw [if_neg hi]
      exact ⟨.inr, fun hor => hor.resolve_left fun ⟨_, _, hsize⟩ => hi hsize.symm⟩
  | setAttribute => exact hkept _ (parentOf_modify fun _ => rfl) fun _ heq => by cases heq
  | setStyle => exact hkept _ (parentOf_modify fun _ => rfl) fun _ heq => by cases heq
  | setText => exact hkept _ (parentOf_modify fun _ => rfl) fun _ heq => by cases heq

/-- **An element is its own parent** exactly if one of the writes has added it below the id
    that the drawing had ready for it. -/
theorem selfParented_after_iff (h : d.Downward) (hnone : ¬ d.SelfParented i)
    (writes : List Write) :
    (d.after writes).SelfParented i ↔
      ∃ before tag, before ++ [Write.append i tag] <+: writes ∧ (d.after before).size = i := by
  induction writes using List.reverseRecOn with
  | nil =>
    refine ⟨fun hself => absurd hself hnone, ?_⟩
    rintro ⟨before, tag, hprefix, -⟩
    exact absurd (List.prefix_nil.mp hprefix) (by simp)
  | append_singleton writes w ih =>
    rw [after_concat, selfParented_apply_iff (h.after writes), ih]
    constructor
    · rintro (⟨tag, rfl, hsize⟩ | ⟨before, tag, hprefix, hsize⟩)
      -- the last write is the one, or it is among those before
      · exact ⟨writes, tag, List.prefix_rfl, hsize⟩
      · exact ⟨before, tag, hprefix.trans (List.prefix_append _ _), hsize⟩
    · rintro ⟨before, tag, hprefix, hsize⟩
      rcases List.prefix_concat_iff.mp hprefix with heq | hprefix
      · obtain ⟨rfl, hw⟩ := List.append_inj' heq rfl
        cases hw
        exact .inl ⟨tag, rfl, hsize⟩
      · exact .inr ⟨before, tag, hprefix, hsize⟩

/-! ### All walks -/

/-- **What walks down a drawing come to.** -/
structure WalkLaws (d : Drawing) : Prop where
  /-- An element that is added below an unknown id is in no list of children, unless the id
      is its own: then it is in its own list. -/
  stray : ∀ p tag j, d.size ≤ p →
    ((d.append p tag).2.HasChild j d.size ↔ j = d.size ∧ p = d.size)
  /-- A child has a greater id than the element in whose list it stands, unless that is the
      child itself. -/
  lt : ∀ p c, d.HasChild p c → p < c ∨ p = c ∧ d.SelfParented p
  /-- No other element is its own descendant. -/
  descendant : ∀ i, Relation.TransGen d.HasChild i i ↔ d.SelfParented i
  /-- The recursion from any id ends, also from an unknown one. -/
  recursion : ∀ i, d.WalkEnds i ↔ ¬ d.SelfParented i
  /-- Searching from any list of ids ends. -/
  search : ∀ pending, (∃ visited, d.Visits pending visited) ↔ ∀ i ∈ pending, ¬ d.SelfParented i
  /-- The trees from which boxes and texts are computed pass over no child. -/
  tree : ∀ i e, d.get? i = some e → ¬ d.SelfParented i →
    d.tree? i = some (.node i e (e.children.filterMap d.tree?))
  /-- From the root all walks end. -/
  root : d.WalkEnds root ∧ ∃ visited, d.Visits (d.childrenOf root) visited

/-- The laws follow from the invariant alone. -/
theorem Downward.walkLaws (h : d.Downward) : d.WalkLaws where
  stray := fun p tag j hp => by
    have hfresh : d.size ∉ d.childrenOf j := fun hmem =>
      Nat.lt_irrefl _ (h.child j d.size hmem).1
    rw [HasChild, childrenOf_append, List.mem_append, List.mem_ite_nil_right]
    constructor
    · intro hor
      obtain ⟨⟨rfl, hle⟩, -⟩ := hor.resolve_left hfresh
      exact ⟨Nat.le_antisymm hle hp, Nat.le_antisymm hle hp⟩
    · rintro ⟨rfl, rfl⟩
      exact .inr ⟨⟨rfl, Nat.le_refl _⟩, List.mem_singleton.mpr rfl⟩
  lt := fun _ _ hpc => h.lt_or_self hpc
  descendant := fun _ => h.below_self_iff
  recursion := fun _ => h.walkEnds_iff
  search := fun pending => by
    rw [exists_visits_iff]
    exact forall₂_congr fun _ _ => h.walkEnds_iff
  tree := fun _ _ he hself => h.tree?_eq he hself
  root := by
    have hroot := h.walkEnds root h.not_selfParented_root
    exact ⟨hroot, exists_visits_iff.mpr fun c hc => hroot.inv hc⟩

/-- **Walks down a drawing end**, whatever ids have been written to.  The only elements from
    which a walk does not end are their own parents: those that one of the writes has added
    below the very id that the drawing had ready for them. -/
theorem after_canvas_walks (width height : Float) (writes : List Write) :
    ((canvas width height).after writes).WalkLaws ∧
      ∀ i, ((canvas width height).after writes).SelfParented i ↔
        ∃ before tag, before ++ [Write.append i tag] <+: writes ∧
          ((canvas width height).after before).size = i := by
  have htree := isTree_canvas width height
  refine ⟨(htree.downward.after writes).walkLaws, fun i => ?_⟩
  exact selfParented_after_iff htree.downward (htree.not_selfParented i) writes

-- The exception is real: on an empty canvas the next id is 2, and an element that is added
-- below it is its own child, so that no walk from it ends.
example (width height : Float) (tag : String) :
    let d := ((canvas width height).append 2 tag).2
    d.childrenOf 2 = [2] ∧ ¬ d.WalkEnds 2 := by
  intro d
  have hsize : (canvas width height).size = 2 := by
    simp only [canvas, size_setAttribute, size_append]
    rfl
  have hchildren : d.childrenOf 2 = [2] := by
    rw [childrenOf_append, hsize, childrenOf_of_size_le (Nat.le_of_eq hsize)]
    rfl
  have hparent : d.SelfParented 2 := by
    rw [SelfParented, parentOf_append, hsize, if_pos rfl]
  have hdown := (isTree_canvas width height).downward.append 2 tag
  exact ⟨hchildren, fun hends => hdown.walkEnds_iff.mp hends hparent⟩

end BlockChart.Drawing
