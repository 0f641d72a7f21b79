import BlockChart.Proofs.DownwardWalks
import Mathlib.Data.List.Nodup

namespace BlockChart

/-!
# Searching in document order

The text of a drawing is written by a recursion from an element to its children.  Searching
for a tag takes another way: it keeps a list of elements still to visit, takes the first one
off and puts its children in its place.  Both meet the same elements in the same order.

* `Drawing.InSubtree` is what can be reached from an element along the lists of children, and
  `Drawing.LeadsDown` says that this leads to later elements only;
* `Tree.search_eq` — the search through trees still to visit is a selection from their
  elements in document order;
* `Drawing.LeadsDown.visits_order` — so is the search through the arena, which therefore
  ends;
* `Drawing.ListedOnce` is what makes document order meet every element once, and
  `ListedOnce.after` keeps it through any writes;
* `Drawing.findAll_inDocumentOrder` puts the three together.
-/

/-! ### Trees still to visit -/

namespace Tree

/-- The elements of two lists of trees, one after the other. -/
theorem entriesAll_append (ts us : List Tree) :
    entriesAll (ts ++ us) = entriesAll ts ++ entriesAll us := by
  induction ts with
  | nil => rfl
  | cons t rest ih => rw [List.cons_append, entriesAll, entriesAll, ih, List.append_assoc]

/-- **Searching trees**: of their elements in document order, those of the tag. -/
theorem search_eq (tag : String) (pending : List Tree) :
    search tag pending = ((entriesAll pending).filter fun x => x.2.tag = tag).map Prod.fst := by
  fun_induction search tag pending with
  | case1 => rfl
  | case2 id e children rest found htag ih =>
    simp [found, ih, entriesAll, entries, entriesAll_append, htag]
  | case3 id e children rest found htag ih =>
    simp [found, ih, entriesAll, entries, entriesAll_append, htag]

end Tree

namespace Drawing

variable {d : Drawing} {i j x : ElementId} {e : Element}

/-- A tree keeps its elements, so the tag of an entry is the one in the arena. -/
theorem tag?_of_mem_entries {t : Tree} (ht : d.tree? i = some t) {x : ElementId × Element}
    (hx : x ∈ t.entries) : d.tag? x.1 = some x.2.tag := by
  rw [tag?, get?_of_mem_entries ht hx, Option.map_some]

/-- What is found is a part of document order, the root left out. -/
theorem findAll_eq (d : Drawing) (tag : String) :
    d.findAll tag = (d.order root).tail.filter fun i => d.tag? i = some tag := by
  unfold findAll order
  cases ht : d.tree? root with
  | none => rfl
  | some t =>
    -- every element below the root is listed with the tag that it has in the drawing
    have htags : ∀ x ∈ t.entries, d.tag? x.1 = some x.2.tag := fun _ => tag?_of_mem_entries ht
    obtain ⟨id, e, children⟩ := t
    have hbelow : ∀ x ∈ Tree.entriesAll children, d.tag? x.1 = some x.2.tag :=
      fun x hx => htags x (List.mem_cons_of_mem _ hx)
    show Tree.search tag children = (Tree.orderAll children).filter _
    rw [Tree.search_eq, ← Tree.map_fst_entriesAll, List.filter_map]
    congr 1
    refine List.filter_congr fun x hx => ?_
    simp only [Function.comp_apply, hbelow x hx, Option.some_inj]

/-! ### Subtrees -/

/-- **Element `j` is in the subtree of `i`**: a way down along the lists of children leads
    from `i` to `j`, or the two are one. -/
def InSubtree (d : Drawing) (i j : ElementId) : Prop :=
  Relation.ReflTransGen d.HasChild i j

/-- Children are what the element lists. -/
theorem hasChild_of_get? (he : d.get? i = some e) : d.HasChild i j ↔ j ∈ e.children := by
  rw [HasChild, childrenOf_of_get? he]

/-- Only elements of the drawing have children. -/
theorem HasChild.lt_size (hij : d.HasChild i j) : i < d.size := by
  by_contra hi
  rw [HasChild, childrenOf_of_size_le (Nat.le_of_not_lt hi)] at hij
  exact List.not_mem_nil hij

/-- **From `i` children are later elements**: those of all elements in the subtree of `i`.  All
    walks from `i` need no more than that. -/
def LeadsDown (d : Drawing) (i : ElementId) : Prop :=
  ∀ j c, d.InSubtree i j → d.HasChild j c → j < c ∧ c < d.size

/-- A child is later, and in the arena. -/
theorem WellFormed.hasChild (h : d.WellFormed) (hij : d.HasChild i j) : i < j ∧ j < d.size := by
  obtain ⟨e, he⟩ := exists_get?_of_lt hij.lt_size
  exact h i e he j ((hasChild_of_get? he).mp hij)

/-- In a well-formed drawing that is so from every element. -/
theorem WellFormed.leadsDown (h : d.WellFormed) (i : ElementId) : d.LeadsDown i :=
  fun _ _ _ hchild => h.hasChild hchild

/-- In a drawing that has been written to with any ids, children are later elements from every
    element that is not its own parent. -/
theorem Downward.leadsDown (h : d.Downward) (hself : ¬ d.SelfParented i) : d.LeadsDown i := by
  -- no element on the way down is its own parent: its parent is the one before it on the way
  have hnone : ∀ j, d.InSubtree i j → ¬ d.SelfParented j := by
    intro j hj
    induction hj with
    | refl => exact hself
    | @tail p c _ hchild ih =>
      intro hc
      obtain ⟨-, hparent, -⟩ := h.child p c hchild
      obtain rfl : p = c := Option.some_inj.mp (hparent.symm.trans hc)
      exact ih hc
  intro j c hj hchild
  have hlt := (h.lt_or_self hchild).resolve_right fun heq => hnone j hj heq.2
  exact ⟨hlt, (h.child j c hchild).1⟩

namespace LeadsDown

/-- The same holds from a child. -/
theorem child (h : d.LeadsDown i) (hchild : d.HasChild i j) : d.LeadsDown j :=
  fun k c hk hc => h k c (.head hchild hk) hc

/-- The children of the top are later elements. -/
theorem later (h : d.LeadsDown i) (he : d.get? i = some e) :
    ∀ c ∈ e.children, d.HasChild i c ∧ i < c ∧ c < d.size := by
  intro c hc
  have hchild := (hasChild_of_get? he).mpr hc
  exact ⟨hchild, h i c .refl hchild⟩

/-- Nothing in the subtree comes before its top. -/
theorem le (h : d.LeadsDown i) (hx : d.InSubtree i x) : i ≤ x := by
  induction hx with
  | refl => exact Nat.le_refl i
  | tail hp hchild ih => exact Nat.le_of_lt (Nat.lt_of_le_of_lt ih (h _ _ hp hchild).1)

/-- The recursion of document order. -/
theorem order_eq (h : d.LeadsDown i) (he : d.get? i = some e) :
    d.order i = i :: e.children.flatMap d.order :=
  order_of_later he fun c hc => (h.later he c hc).2.1

/-- Document order goes through the subtree. -/
theorem mem_order_iff {i : ElementId} (h : d.LeadsDown i) (hi : i < d.size) :
    x ∈ d.order i ↔ d.InSubtree i x := by
  obtain ⟨e, he⟩ := exists_get?_of_lt hi
  rw [h.order_eq he, List.mem_cons, List.mem_flatMap]
  constructor
  · rintro (rfl | ⟨c, hc, hx⟩)
    · exact .refl
    · obtain ⟨hchild, hlt, hsize⟩ := h.later he c hc
      exact .head hchild (((h.child hchild).mem_order_iff hsize).mp hx)
  · intro hx
    rcases Relation.ReflTransGen.cases_head hx with rfl | ⟨c, hchild, hx⟩
    · exact .inl rfl
    · have hc := (hasChild_of_get? he).mp hchild
      obtain ⟨-, hlt, hsize⟩ := h.later he c hc
      exact .inr ⟨c, hc, ((h.child hchild).mem_order_iff hsize).mpr hx⟩
termination_by d.size - i
decreasing_by all_goals exact Nat.sub_lt_sub_left hi hlt

/-! ### The search through the arena -/

/-- **An element is visited with its subtree**, in document order, before the others that are
    still to visit. -/
theorem visits_cons {i : ElementId} (h : d.LeadsDown i) (hi : i < d.size)
    {rest visited : List ElementId} (hrest : d.Visits rest visited) :
    d.Visits (i :: rest) (d.order i ++ visited) := by
  obtain ⟨e, he⟩ := exists_get?_of_lt hi
  have hlater := h.later he
  rw [h.order_eq he, List.cons_append]
  refine .next ?_
  rw [childrenOf_of_get? he]
  -- the children take the place of `i`, and each is visited before those behind it
  generalize e.children = children at hlater
  induction children with
  | nil => exact hrest
  | cons c children ih =>
    obtain ⟨hchild, hic, hc⟩ := hlater c List.mem_cons_self
    have hothers := ih fun c' hc' => hlater c' (List.mem_cons_of_mem c hc')
    rw [List.flatMap_cons, List.append_assoc]
    exact visits_cons (h.child hchild) hc hothers
termination_by d.size - i
decreasing_by exact Nat.sub_lt_sub_left hi hic

/-- The search from the children of the root visits all that document order comes to after
    the root. -/
theorem visits_order (h : d.LeadsDown root) :
    d.Visits (d.childrenOf root) (d.order root).tail := by
  by_cases hroot : root < d.size
  · have hvisits := h.visits_cons hroot .done
    obtain ⟨e, he⟩ := exists_get?_of_lt hroot
    rw [h.order_eq he] at hvisits ⊢
    rw [List.append_nil] at hvisits
    cases hvisits with
    | next others => rwa [List.append_nil] at others
  · have hsize : d.size ≤ root := Nat.le_of_not_lt hroot
    rw [childrenOf_of_size_le hsize, order_of_size_le hsize]
    exact .done

end LeadsDown

/-- The visits are determined by where the search starts. -/
theorem Visits.unique {pending visited other : List ElementId} (h : d.Visits pending visited)
    (hother : d.Visits pending other) : other = visited := by
  induction h generalizing other with
  | done =>
    cases hother
    rfl
  | next _ ih =>
    cases hother with
    | next others => rw [ih others]

/-! ### Each once -/

/-- **Every id stands in one list of children at most**, and there once. -/
structure ListedOnce (d : Drawing) : Prop where
  owner : ∀ p q c, d.HasChild p c → d.HasChild q c → p = q
  nodup : ∀ p, (d.childrenOf p).Nodup

/-- Where lists of children lead down, a child stands in the list of its parent only. -/
theorem Downward.owner_unique (h : d.Downward) {p q c : ElementId} (hp : d.HasChild p c)
    (hq : d.HasChild q c) : p = q := by
  obtain ⟨-, hparent, -⟩ := h.child p c hp
  obtain ⟨-, hparent', -⟩ := h.child q c hq
  exact Option.some_inj.mp (hparent.symm.trans hparent')

/-- A tree lists every element once. -/
theorem IsTree.listedOnce (h : d.IsTree) : d.ListedOnce where
  owner := fun _ _ _ => h.downward.owner_unique
  nodup := fun p => by
    by_cases hp : p < d.size
    · obtain ⟨e, he⟩ := exists_get?_of_lt hp
      rw [childrenOf_of_get? he]
      exact (h.increasing p e he).imp Nat.ne_of_lt
    · rw [childrenOf_of_size_le (Nat.le_of_not_lt hp)]
      exact List.nodup_nil

namespace ListedOnce

/-- A change that leaves the lists of children alone. -/
theorem of_children {d' : Drawing} (h : d.ListedOnce)
    (hchildren : ∀ i, d'.childrenOf i = d.childrenOf i) : d'.ListedOnce where
  owner := fun p q c hp hq => by
    rw [HasChild, hchildren] at hp hq
    exact h.owner p q c hp hq
  nodup := fun p => by
    rw [hchildren]
    exact h.nodup p

/-- **One write**, with any id, lists nothing twice: the id of a new element is in no list yet. -/
theorem apply (h : d.ListedOnce) (hd : d.Downward) (w : Write) : (w.apply d).ListedOnce := by
  cases w with
  | append parent tag =>
    refine ⟨fun _ _ _ => (hd.append parent tag).owner_unique, fun p => ?_⟩
    -- the new element was nobody's child before
    have hfresh : d.size ∉ d.childrenOf p := fun hmem => Nat.lt_irrefl _ (hd.child p _ hmem).1
    rw [Write.apply, childrenOf_append]
    split
    · exact (h.nodup p).append (List.nodup_singleton _) (List.disjoint_singleton.mpr hfresh)
    · rw [List.append_nil]
      exact h.nodup p
  | setAttribute id name value => exact h.of_children fun _ => childrenOf_modify fun _ => rfl
  | setStyle id name value => exact h.of_children fun _ => childrenOf_modify fun _ => rfl
  | setText id content => exact h.of_children fun _ => childrenOf_modify fun _ => rfl

/-- **Any writes** list nothing twice. -/
theorem after (h : d.ListedOnce) (hd : d.Downward) (writes : List Write) :
    (d.after writes).ListedOnce := by
  induction writes generalizing d with
  | nil => exact h
  | cons w rest ih => exact ih (h.apply hd w) (hd.apply w)

/-- **Different children have nothing in common**: on the way up from a common descendant the
    two ways would have to part, and nothing has two owners. -/
theorem disjoint (h : d.ListedOnce) (hd : d.LeadsDown i) {c c' : ElementId}
    (hc : d.HasChild i c) (hc' : d.HasChild i c') (hne : c ≠ c') (hx : d.InSubtree c x) :
    ¬ d.InSubtree c' x := by
  -- the parent is not below its own children
  have hup : ∀ k, d.HasChild i k → ¬ d.InSubtree k i := fun k hk hin =>
    Nat.not_lt_of_le ((hd.child hk).le hin) (hd i k .refl hk).1
  induction hx with
  | refl =>
    intro hx'
    rcases Relation.ReflTransGen.cases_tail hx' with heq | ⟨p, hp, hpc⟩
    · exact hne heq
    · exact hup c' hc' (h.owner p i c hpc hc ▸ hp)
  | @tail p x hp hpx ih =>
    intro hx'
    rcases Relation.ReflTransGen.cases_tail hx' with rfl | ⟨p', hp', hpx'⟩
    · exact hup c hc (h.owner p i x hpx hc' ▸ hp)
    · exact ih (h.owner p' p x hpx' hpx ▸ hp')

/-- **Document order meets every element once at most.** -/
theorem nodup_order (h : d.ListedOnce) {i : ElementId} (hd : d.LeadsDown i) (hi : i < d.size) :
    (d.order i).Nodup := by
  obtain ⟨e, he⟩ := exists_get?_of_lt hi
  have hlater := hd.later he
  have hchildren : e.children.Nodup := childrenOf_of_get? he ▸ h.nodup i
  rw [hd.order_eq he, List.nodup_cons, List.nodup_flatMap]
  refine ⟨fun hmem => ?_, fun c hc => ?_, hchildren.pairwise_of_forall_ne fun c hc c' hc' hne => ?_⟩
  -- an element is not in the order of its children, since all there is later
  · obtain ⟨c, hc, hmem⟩ := List.mem_flatMap.mp hmem
    exact Nat.not_lt_of_le (bounds_of_mem_order hmem).1 (hlater c hc).2.1
  · obtain ⟨hchild, hlt, hsize⟩ := hlater c hc
    exact h.nodup_order (hd.child hchild) hsize
  -- the subtrees of two children have nothing in common
  · obtain ⟨hchild, -, hsize⟩ := hlater c hc
    obtain ⟨hchild', -, hsize'⟩ := hlater c' hc'
    intro x hx hx'
    exact h.disjoint hd hchild hchild' hne (((hd.child hchild).mem_order_iff hsize).mp hx)
      (((hd.child hchild').mem_order_iff hsize').mp hx')
termination_by d.size - i
decreasing_by exact Nat.sub_lt_sub_left hi hlt

end ListedOnce

/-! ### The three ways -/

/-- **How a tag is searched for**, given the ids in the order in which the search visits
    them. -/
structure SearchedInOrder (d : Drawing) (tag : String) (visited : List ElementId) : Prop where
  /-- The search ends, and there is no other way that it can end. -/
  ends : ∀ other, d.Visits (d.childrenOf root) other ↔ other = visited
  /-- It visits what is written below the root, in the order of the start tags. -/
  written : ((d.pieces.filterMap Markup.Piece.started?).map Prod.fst).tail = visited
  text : String.join (d.pieces.map Markup.Piece.text) = d.svg
  /-- Of these, it finds the ones of the tag. -/
  found : d.findAll tag = visited.filter fun i => d.tag? i = some tag
  first : d.find? tag = visited.find? fun i => d.tag? i = some tag
  /-- That is all there is below the root. -/
  mem_iff : ∀ i, i ∈ d.findAll tag ↔ i ≠ root ∧ d.InSubtree root i ∧ d.tag? i = some tag
  /-- It finds each once, if none stands in the lists of children twice. -/
  once : d.ListedOnce → (d.findAll tag).Nodup

/-- Below the root are the elements of its subtree but the root. -/
theorem LeadsDown.mem_tail_order_iff (h : d.LeadsDown root) :
    i ∈ (d.order root).tail ↔ i ≠ root ∧ i < d.size ∧ d.InSubtree root i := by
  by_cases hroot : root < d.size
  · obtain ⟨e, he⟩ := exists_get?_of_lt hroot
    have hmem := h.mem_order_iff (x := i) hroot
    rw [h.order_eq he, List.mem_cons] at hmem
    rw [h.order_eq he, List.tail_cons, ← hmem]
    constructor
    · intro hi
      obtain ⟨c, hc, hic⟩ := List.mem_flatMap.mp hi
      obtain ⟨hci, hsize⟩ := bounds_of_mem_order hic
      have hlater : root < i := Nat.lt_of_lt_of_le (h.later he c hc).2.1 hci
      exact ⟨Nat.ne_of_gt hlater, hsize, .inr hi⟩
    · rintro ⟨hne, -, hor⟩
      exact hor.resolve_left hne
  -- without a root nothing is listed
  · rw [order_of_size_le (Nat.le_of_not_lt hroot)]
    constructor
    · exact fun hi => absurd hi List.not_mem_nil
    · rintro ⟨-, hi, -⟩
      exact absurd (Nat.lt_of_le_of_lt (Nat.zero_le i) hi) hroot

/-- Where children are later elements from the root on, the search goes in document order. -/
theorem LeadsDown.searchedInOrder (h : d.LeadsDown root) (tag : String) :
    d.SearchedInOrder tag (d.order root).tail where
  ends := fun other => by
    constructor
    · exact fun hother => h.visits_order.unique hother
    · rintro rfl
      exact h.visits_order
  written := by rw [started_pieces_eq_order]
  text := join_pieces_eq_svg d
  found := findAll_eq d tag
  first := by rw [find?, findAll_eq, List.head?_filter]
  mem_iff := fun i => by
    rw [findAll_eq, List.mem_filter, h.mem_tail_order_iff, decide_eq_true_eq]
    constructor
    · rintro ⟨⟨hne, -, hin⟩, htag⟩
      exact ⟨hne, hin, htag⟩
    · rintro ⟨hne, hin, htag⟩
      obtain ⟨e, he, -⟩ := Option.map_eq_some_iff.mp htag
      exact ⟨⟨hne, lt_size_of_get? he, hin⟩, htag⟩
  once := fun honce => by
    rw [findAll_eq]
    by_cases hroot : root < d.size
    · exact ((honce.nodup_order h hroot).sublist (List.tail_sublist _)).filter _
    · rw [order_of_size_le (Nat.le_of_not_lt hroot)]
      exact List.nodup_nil

/-- **Searching for a tag goes in document order.**  The search with a list of elements still
    to visit ends; it finds the elements of the tag below the root in the order in which the
    text writes them, each once, and the first of them is the one that a search for a single
    element gives.  So it is in every drawing whose children are later elements, and in every
    drawing that is made from a canvas by writes with any ids; in the latter nothing stands in
    the lists of children twice. -/
theorem findAll_inDocumentOrder (tag : String) :
    (∀ d : Drawing, d.WellFormed → d.SearchedInOrder tag (d.order root).tail) ∧
      ∀ (width height : Float) (writes : List Write),
        let d := (canvas width height).after writes
        d.SearchedInOrder tag (d.order root).tail ∧ (d.findAll tag).Nodup := by
  refine ⟨fun d h => (h.leadsDown root).searchedInOrder tag, fun width height writes => ?_⟩
  have htree := isTree_canvas width height
  have hdown := htree.downward.after writes
  have hsearch := (hdown.leadsDown hdown.not_selfParented_root).searchedInOrder tag
  exact ⟨hsearch, hsearch.once (htree.listedOnce.after htree.downward writes)⟩

/-- Two groups below the root, and below the first of them a circle and one more group. -/
def nestedGroups : Drawing :=
  let d : Drawing := ⟨#[.plain "svg" none]⟩
  let d := ((d.append root "g").2.append root "g").2
  ((d.append 1 "circle").2.append 1 "g").2

theorem isTree_nestedGroups : nestedGroups.IsTree := by
  have hroot := isTree_singleton "svg"
  have hgroups := (hroot.append (p := root) Nat.one_pos "g").append (p := root) Nat.two_pos "g"
  have hcircle := hgroups.append (p := 1) (by decide) "circle"
  exact hcircle.append (p := 1) (by decide) "g"

/-- The inner group was added last, and is found before the second of the outer ones. -/
theorem findAll_inDocumentOrder_nestedGroups :
    nestedGroups.WellFormed ∧ nestedGroups.ListedOnce ∧
      nestedGroups.findAll "g" = [1, 4, 2] ∧ nestedGroups.find? "g" = some 1 ∧
      (nestedGroups.findAll "g").Nodup := by
  have hwell := isTree_nestedGroups.wellFormed
  have honce := isTree_nestedGroups.listedOnce
  have hsearch := (findAll_inDocumentOrder "g").1 nestedGroups hwell
  have hvisits : nestedGroups.Visits (nestedGroups.childrenOf root) [1, 3, 4, 2] :=
    .next (.next (.next (.next .done)))
  have horder := (hsearch.ends _).mp hvisits
  refine ⟨hwell, honce, ?_, ?_, hsearch.once honce⟩
  · rw [hsearch.found, ← horder]
    rfl
  · rw [hsearch.first, ← horder]
    rfl

-- An element that stands in the lists of children twice is written twice, and found twice.
example :
    findAll ⟨#[{ Element.plain "svg" none with children := [1, 1] }, .plain "g" (some 0)]⟩ "g"
      = [1, 1] := by
  decide +kernel

end Drawing

end BlockChart
