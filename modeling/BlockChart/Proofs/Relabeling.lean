import BlockChart.Proofs.Nodes

namespace BlockChart

/-!
# Relabelled programs

A `Relabeling` rewrites what is written on the nodes of a program: the names of
variables, and all that `color` nodes carry.  It leaves the shape of the program and
everything else as it is.

* `Program.Matches` — two nodes that are the same up to a relabelling, with programs in their
  slots that are compared one by one;
* `Program.relabel_relabel` — relabelling twice is relabelling once;
* `Program.Loads` are the names under which a program looks up variables, at any depth.
-/

/-- **What becomes of labels**: of the names of variables, and of the flags, the paints and
    the colours of `color` nodes. -/
structure Relabeling where
  name : String → String := id
  flag : Bool → Bool := id
  paint : Paint → Paint := id
  color : String → String := id

namespace Relabeling

/-- One relabelling after another. -/
def andThen (r r' : Relabeling) : Relabeling :=
  ⟨r'.name ∘ r.name, r'.flag ∘ r.flag, r'.paint ∘ r.paint, r'.color ∘ r.color⟩

end Relabeling

namespace Program

/-- Relabels every node. -/
def relabel (r : Relabeling) : Program → Program
  | nothing => nothing
  | string d s => string d s
  | load d name => load d (r.name name)
  | width d => width d
  | height d => height d
  | count d x => count d (x.relabel r)
  | cell d x y => cell d (x.relabel r) (y.relabel r)
  | rows d => rows d
  | columns d => columns d
  | columnName d x => columnName d (x.relabel r)
  | binary d x y operator => binary d (x.relabel r) (y.relabel r) operator
  | stat d x operator => stat d (x.relabel r) operator
  | store d name x next => store d (r.name name) (x.relabel r) (next.relabel r)
  | color d paint c next => color (r.flag d) (r.paint paint) (r.color c) (next.relabel r)
  | alpha d opacity x next => alpha d opacity (x.relabel r) (next.relabel r)
  | forEach d x name child next =>
    forEach d (x.relabel r) (r.name name) (child.relabel r) (next.relabel r)
  | conditional d x child next =>
    conditional d (x.relabel r) (child.relabel r) (next.relabel r)
  | translate d x y child next =>
    translate d (x.relabel r) (y.relabel r) (child.relabel r) (next.relabel r)
  | rotate d x child => rotate d (x.relabel r) (child.relabel r)
  | scale d x child => scale d (x.relabel r) (child.relabel r)
  | align d horizontal vertical child next =>
    align d horizontal vertical (child.relabel r) (next.relabel r)
  | margin d x child next => margin d (x.relabel r) (child.relabel r) (next.relabel r)
  | circle d x child next => circle d (x.relabel r) (child.relabel r) (next.relabel r)
  | rect d x y child next =>
    rect d (x.relabel r) (y.relabel r) (child.relabel r) (next.relabel r)
  | text d x child next => text d (x.relabel r) (child.relabel r) (next.relabel r)

/-- **Relabelling composes.** -/
theorem relabel_relabel (r r' : Relabeling) (p : Program) :
    (p.relabel r).relabel r' = p.relabel (r.andThen r') := by
  induction p <;> simp only [relabel, Relabeling.andThen, Function.comp_apply, *]

/-- To relabel nothing changes nothing. -/
theorem relabel_id (p : Program) : p.relabel {} = p := by
  induction p <;> simp only [relabel, id_eq, *]

/-- Relabelling goes on along the chain. -/
theorem next_relabel (r : Relabeling) (p : Program) : (p.relabel r).next = p.next.relabel r := by
  cases p <;> rfl

/-! ### Nodes side by side -/

/-- **Nodes that match**: the second is the first relabelled, but for the programs in the slots.
    Those that are run alone are related by `input`, and bodies by `body`; what follows the nodes
    in their chains is not compared. -/
inductive Matches (r : Relabeling) (input body : Program → Program → Prop) :
    Program → Program → Prop
  | string {d s} : Matches r input body (string d s) (string d s)
  | load {d name} : Matches r input body (load d name) (load d (r.name name))
  | width {d} : Matches r input body (width d) (width d)
  | height {d} : Matches r input body (height d) (height d)
  | count {d x x'} (hx : input x x') : Matches r input body (count d x) (count d x')
  | cell {d x x' y y'} (hx : input x x') (hy : input y y') :
      Matches r input body (cell d x y) (cell d x' y')
  | rows {d} : Matches r input body (rows d) (rows d)
  | columns {d} : Matches r input body (columns d) (columns d)
  | columnName {d x x'} (hx : input x x') : Matches r input body (columnName d x) (columnName d x')
  | binary {d x x' y y' operator} (hx : input x x') (hy : input y y') :
      Matches r input body (binary d x y operator) (binary d x' y' operator)
  | stat {d x x' operator} (hx : input x x') :
      Matches r input body (stat d x operator) (stat d x' operator)
  | store {d name x x' n n'} (hx : input x x') :
      Matches r input body (store d name x n) (store d (r.name name) x' n')
  | color {d paint c n n'} :
      Matches r input body (color d paint c n) (color (r.flag d) (r.paint paint) (r.color c) n')
  | alpha {d opacity x x' n n'} (hx : input x x') :
      Matches r input body (alpha d opacity x n) (alpha d opacity x' n')
  | forEach {d x x' name child child' n n'} (hx : input x x') (hchild : body child child') :
      Matches r input body (forEach d x name child n) (forEach d x' (r.name name) child' n')
  | conditional {d x x' child child' n n'} (hx : input x x') (hchild : body child child') :
      Matches r input body (conditional d x child n) (conditional d x' child' n')
  | translate {d x x' y y' child child' n n'} (hx : input x x') (hy : input y y')
      (hchild : body child child') :
      Matches r input body (translate d x y child n) (translate d x' y' child' n')
  | rotate {d x x' child child'} (hx : input x x') (hchild : body child child') :
      Matches r input body (rotate d x child) (rotate d x' child')
  | scale {d x x' child child'} (hx : input x x') (hchild : body child child') :
      Matches r input body (scale d x child) (scale d x' child')
  | align {d horizontal vertical child child' n n'} (hchild : body child child') :
      Matches r input body (align d horizontal vertical child n)
        (align d horizontal vertical child' n')
  | margin {d x x' child child' n n'} (hx : input x x') (hchild : body child child') :
      Matches r input body (margin d x child n) (margin d x' child' n')
  | circle {d x x' child child' n n'} (hx : input x x') (hchild : body child child') :
      Matches r input body (circle d x child n) (circle d x' child' n')
  | rect {d x x' y y' child child' n n'} (hx : input x x') (hy : input y y')
      (hchild : body child child') :
      Matches r input body (rect d x y child n) (rect d x' y' child' n')
  | text {d x x' child child' n n'} (hx : input x x') (hchild : body child child') :
      Matches r input body (text d x child n) (text d x' child' n')

/-- A node matches what it is relabelled to, if inputs and body do. -/
theorem matches_relabel {r : Relabeling} {input body : Program → Program → Prop} {p : Program}
    (hp : p ≠ nothing) (hinputs : ∀ x ∈ p.inputs, input x (x.relabel r))
    (hbody : body p.body (p.body.relabel r)) : Matches r input body p (p.relabel r) := by
  cases p
  case nothing => exact absurd rfl hp
  all_goals
    simp only [inputs, Program.body, List.forall_mem_cons] at hinputs hbody
    constructor <;> simp only [hinputs, hbody]

/-- A node matches itself, if inputs and body do. -/
theorem matches_self {input body : Program → Program → Prop} {p : Program} (hp : p ≠ nothing)
    (hinputs : ∀ x ∈ p.inputs, input x x) (hbody : body p.body p.body) :
    Matches {} input body p p := by
  have h : Matches {} input body p (p.relabel {}) :=
    matches_relabel hp (fun x hx => by rw [relabel_id]; exact hinputs x hx)
      (by rw [relabel_id]; exact hbody)
  rwa [relabel_id] at h

/-- The program looks up a variable under the name, at some depth. -/
def Loads (p : Program) (name : String) : Prop :=
  ∃ d, (load d name).Within p

/-- What a slot loads is loaded by the program. -/
theorem Loads.of_slot {p q : Program} {name : String} (hq : q ∈ p.slots) (h : q.Loads name) :
    p.Loads name := by
  obtain ⟨d, hd⟩ := h
  exact ⟨d, .slot hq hd⟩

end Program

end BlockChart
