import BlockChart.Block.Compile
import BlockChart.Chart
import BlockChart.Proofs.Flags
import BlockChart.Proofs.RoundTrip

namespace BlockChart

/-!
# Rendering is compiling, then running

A workspace is rendered by running what it compiles to; it can as well be compiled to a
JSON value that is run later.  On the way through JSON the flag of a disabled `string` or
`load` block is lost, so the two programs need not be equal.  They run alike all the same:

* `Program.run_written` — a program runs like the one that is read back;
* `Workspace.render_eq_run_compiled` — the two ways give the same chart or the same fault.
-/

namespace Program

/-- Writing clears only flags that nobody sees. -/
theorem run_written (limit : Nat) (p : Program) : p.written.run limit = p.run limit := by
  refine run_mapFlags (fun op d hop => ?_) limit p
  cases op <;> first | rfl | cases hop

end Program

namespace Chart

/-- Writing a program and reading it back does not change what is drawn. -/
theorem draw_written (settings : Settings) (table : Table) (p : Program) :
    draw settings table p.written = draw settings table p := by
  simp only [draw, Program.run_written]

end Chart

/-- **Rendering is compiling, then running.**  Over every table and under all settings, a
    workspace gives the same chart — the same value, scopes and drawing — or the same fault
    whether its program is run at once or is first written as a JSON value and read back. -/
theorem Workspace.render_eq_run_compiled (w : Workspace) (settings : Settings) (table : Table) :
    (do
      let p ← w.compile
      let q ← Program.ofJson p.toJson
      Chart.draw settings table q)
    = (do
      let p ← w.compile
      Chart.draw settings table p) := by
  cases w.compile with
  | error e => rfl
  | ok p =>
    calc (Program.ofJson p.toJson >>= Chart.draw settings table)
        = Chart.draw settings table p.written := by rw [Program.ofJson_toJson, ok_bind]
      _ = Chart.draw settings table p := Chart.draw_written settings table p

-- The program that is read back need not be the one that was written: here the flag of a
-- disabled block is lost.
example : ∃ p, Workspace.compile ⟨[⟨"circle", [], [("radius", ⟨"string", [("data", .int 5)], [],
    none, true, true⟩)], none, true, false⟩]⟩ = .ok p ∧ p.written ≠ p :=
  ⟨.circle false (.string true "5") .nothing .nothing, rfl, by decide⟩

end BlockChart
