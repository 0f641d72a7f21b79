import BlockChart.Drawing.Markup
import BlockChart.Evaluation.Run

namespace BlockChart

/-!
# Charts

A chart is a program that has been run over a table on a canvas of some size.
-/

/-- The settings of a run. -/
structure Settings where
  /-- How deeply nodes may be nested. -/
  maxDepth : Nat := 512
  width : Float := 800
  height : Float := 600
  logLevel : Option String := none
  deriving Repr

/-- What a finished run gives: the value of the last node, and the session. -/
structure Chart where
  value : Value
  session : Session

namespace Chart

/-- **Draws a chart**: runs a program over a table on an empty canvas. -/
def draw (settings : Settings) (table : Table) (p : Program) : Except Fault Chart :=
  let start := Session.start table (.canvas settings.width settings.height)
  match (p.run settings.maxDepth).run start with
  | (.ok value, session) => .ok ⟨value, session⟩
  | (.error fault, _) => .error fault

/-- The SVG text of a chart. -/
def svg (c : Chart) : String :=
  c.session.drawing.svg

end Chart

end BlockChart
