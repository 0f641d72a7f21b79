import BlockChart.Drawing.Basic

namespace BlockChart

/-!
# The tree of a drawing

`Drawing.tree?` unfolds the element of an id into the tree below it.  Children have
greater ids than their parent, which is why the unfolding ends; it passes over any
other child.

* `Tree.order` is document order: an element before its children, these from first
  to last;
* `Drawing.findAll` finds the elements of a tag with a list of trees still to visit;
  the root is left out.
-/

/-- An element with the trees of its children. -/
inductive Tree where
  | node (id : ElementId) (element : Element) (children : List Tree)
  deriving Repr

/-- **The tree** below an element. -/
def Drawing.tree? (d : Drawing) (id : ElementId) : Option Tree :=
  if h : id < d.elements.size then
    let e := d.elements[id]
    some (.node id e (e.children.filterMap fun c =>
      if _hc : id < c then d.tree? c else none))
  else none
termination_by d.elements.size - id
decreasing_by exact Nat.sub_lt_sub_left h _hc

namespace Tree

mutual

/-- The number of elements of a tree. -/
def count : Tree → Nat
  | .node _ _ children => 1 + countAll children

/-- The number of elements of several trees. -/
def countAll : List Tree → Nat
  | [] => 0
  | t :: rest => t.count + countAll rest

end

/-- Counting goes part by part. -/
theorem countAll_append (ts us : List Tree) : countAll (ts ++ us) = countAll ts + countAll us := by
  induction ts with
  | nil => simp [countAll]
  | cons t rest ih => simp [countAll, ih, Nat.add_assoc]

mutual

/-- **Document order**: the ids of a tree, an element before its children. -/
def order : Tree → List ElementId
  | .node id _ children => id :: orderAll children

/-- Document order of several trees, one after the other. -/
def orderAll : List Tree → List ElementId
  | [] => []
  | t :: rest => t.order ++ orderAll rest

end

/-- The children of the top of a tree. -/
def children : Tree → List Tree
  | .node _ _ children => children

/-- The ids of the elements of a tag among the trees still to visit: the first tree
    is taken off, and its children are put in its place. -/
def search (tag : String) (pending : List Tree) : List ElementId :=
  match pending with
  | [] => []
  | .node id e children :: rest =>
    let found := search tag (children ++ rest)
    if e.tag = tag then id :: found else found
termination_by countAll pending
decreasing_by simp [countAll, count, countAll_append]

end Tree

namespace Drawing

/-- **All elements of a tag** in document order, without the root. -/
def findAll (d : Drawing) (tag : String) : List ElementId :=
  match d.tree? root with
  | some t => Tree.search tag t.children
  | none => []

/-- The first element of a tag in document order, without the root. -/
def find? (d : Drawing) (tag : String) : Option ElementId :=
  (d.findAll tag).head?

end Drawing

end BlockChart
