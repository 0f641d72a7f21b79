import BlockChart.Proofs.ContextStack
import BlockChart.Proofs.Likeness
import BlockChart.Proofs.Nodes

namespace BlockChart

/-!
# Flags that nobody sees

Every node carries a flag that disables it, but only the statements that draw, bind or
branch take notice of it.  An expression is evaluated all the same, and `rotate` and `scale`
still run their bodies.

* `Opcode.heedsFlag` — the operations that a flag disables;
* `Program.meaningAs?_mapFlags` — the other flags do not enter the meaning of a program;
* `Program.heeded` clears the flags of the operations in `Opcode.flagBlind`;
* `Program.run_eq_of_heeded_eq` — programs that differ in such flags only run alike.
-/

namespace Opcode

/-- Whether the operation does nothing when it is disabled. -/
def heedsFlag : Opcode → Bool
  | store | color | alpha | forEach | conditional | translate | align | margin
  | circle | rect | text => true
  | _ => false

/-- The operations that take no notice of being disabled: all expressions, and the two
    transforms that end a chain. -/
def flagBlind : List Opcode :=
  [string, load, width, height, count, cell, rows, columns, columnName, binary, stat, rotate,
    scale]

/-- Every operation is of one of the two sorts. -/
theorem not_mem_flagBlind {op : Opcode} : op ∉ flagBlind ↔ op.heedsFlag = true := by
  cases op <;> decide

end Opcode

namespace Program

section Flags

variable {change : Opcode → Bool → Bool} (h : ∀ op d, op.heedsFlag = true → change op d = d)

include h

/-- **Only some flags have a meaning**: changing the others at any depth of a program does
    not change what it means. -/
theorem meaningAs?_mapFlags (tags : LayoutTags) (limit : Nat) (p : Program) :
    (p.mapFlags change).meaningAs? tags limit = p.meaningAs? tags limit := by
  induction p
  case nothing => rfl
  -- The flag of a statement stands in its meaning and is kept; all other flags do not.
  all_goals
    simp only [mapFlags, meaningAs?, *]
    try rw [h _ _ rfl]

/-- Flags that are not heeded can be changed. -/
theorem run_mapFlags (limit : Nat) (p : Program) :
    (p.mapFlags change).run limit = p.run limit := by
  unfold run runAs
  rw [meaningAs?_mapFlags h]

end Flags

/-- The program with the flag of every node cleared that takes no notice of it. -/
def heeded (p : Program) : Program :=
  p.mapFlags fun op d => if op ∈ Opcode.flagBlind then false else d

/-- What is left of the flags is enough. -/
theorem run_heeded (limit : Nat) (p : Program) : p.heeded.run limit = p.run limit :=
  run_mapFlags (fun _ _ hop => if_neg (Opcode.not_mem_flagBlind.mpr hop)) limit p

/-- **The flag of an expression, of `rotate` and of `scale` is never observed.**  Let two
    programs differ only in the flags of such nodes, at any depth and in any position.  From
    every session, and so over every table and on every canvas, both have the same outcome:
    the same value or the same fault, the same scopes and the same drawing. -/
theorem run_eq_of_heeded_eq {p q : Program} (h : p.heeded = q.heeded) (limit : Nat)
    (s : Session) : (q.run limit).run s = (p.run limit).run s := by
  calc (q.run limit).run s
      = (q.heeded.run limit).run s := by rw [run_heeded]
    _ = (p.heeded.run limit).run s := by rw [h]
    _ = (p.run limit).run s := by rw [run_heeded]

/-- A disabled circle after a loop over a text, whose body turns a circle; the flags of the
    turn, of its angle and of the text are free. -/
def turnedRing (turn angle text : Bool) : Program :=
  .forEach false (.string text "a") "x"
    (.rotate turn (.string angle "45") (.circle false (.load false "x") .nothing .nothing))
    (.circle true .nothing .nothing .nothing)

/-- The ring is drawn whatever is disabled, and the circle after it is not. -/
theorem run_eq_of_heeded_eq_turnedRing :
    let p := turnedRing false false false
    let q := turnedRing true true true
    p.heeded = q.heeded ∧ p ≠ q ∧
      (q.run 8).run .blank = (p.run 8).run .blank ∧
      ((q.run 8).run .blank).2.drawing.size = 4 := by
  intro p q
  have hsame : p.heeded = q.heeded := by decide
  exact ⟨hsame, by decide, run_eq_of_heeded_eq hsame 8 .blank, by decide +kernel⟩

end Program

end BlockChart
