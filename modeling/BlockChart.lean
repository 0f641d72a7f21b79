import BlockChart.Block.Basic
import BlockChart.Block.Compile
import BlockChart.Block.Reader
import BlockChart.Chart
import BlockChart.Command.Arguments
import BlockChart.Command.Basic
import BlockChart.Command.Directory
import BlockChart.Command.Perform
import BlockChart.Dataset
import BlockChart.Drawing.Basic
import BlockChart.Drawing.Bounds
import BlockChart.Drawing.Markup
import BlockChart.Drawing.Tree
import BlockChart.Evaluation.Action
import BlockChart.Evaluation.Expression
import BlockChart.Evaluation.Meaning
import BlockChart.Evaluation.Run
import BlockChart.Evaluation.Statement
import BlockChart.Fault
import BlockChart.Geometry.Anchor
import BlockChart.Geometry.Box
import BlockChart.Geometry.Scalar
import BlockChart.Geometry.Transform
import BlockChart.Json.Basic
import BlockChart.Json.Parser
import BlockChart.Json.Printer
import BlockChart.Main
import BlockChart.Number.Arithmetic
import BlockChart.Number.Layout
import BlockChart.Number.Radix
import BlockChart.Number.Reader
import BlockChart.Number.Shortest
import BlockChart.Opcode
import BlockChart.Path
import BlockChart.Program.Basic
import BlockChart.Program.Decode
import BlockChart.Program.Encode
import BlockChart.Scope
import BlockChart.Settings
import BlockChart.Table
import BlockChart.Text.Blank
import BlockChart.Text.CaseTable
import BlockChart.Text.Distance
import BlockChart.Text.LowerCase
import BlockChart.Theme
import BlockChart.Toml.Basic
import BlockChart.Toml.Reader
import BlockChart.Toml.Scalar
import BlockChart.Value.Basic
import BlockChart.Value.Coercion
import BlockChart.Value.Comparison
import BlockChart.Value.Operator
import BlockChart.Yaml.Basic
import BlockChart.Yaml.Reader
import BlockChart.Yaml.Scanner
import BlockChart.Yaml.Token
import BlockChart.Proofs.Effect
import BlockChart.Proofs.ActionEffect
import BlockChart.Proofs.ProgramEffect
import BlockChart.Proofs.ContextStack
import BlockChart.Proofs.Confinement
import BlockChart.Proofs.DrawingTree
import BlockChart.Proofs.SoundSession
import BlockChart.Proofs.Nodes
import BlockChart.Proofs.RoundTrip
import BlockChart.Proofs.Likeness
import BlockChart.Proofs.Rendering
import BlockChart.Proofs.Pruning
import BlockChart.Proofs.Relabeling
import BlockChart.Proofs.NestingLimit
import BlockChart.Proofs.LoopIsolation
import BlockChart.Proofs.Legibility
import BlockChart.Proofs.ScopeArena
import BlockChart.Proofs.CaseFolding
import BlockChart.Proofs.DrawingLikeness
import BlockChart.Proofs.Recoloring
import BlockChart.Proofs.Comparison
import BlockChart.Proofs.CanvasIndependence
import BlockChart.Proofs.DownwardWalks
import BlockChart.Proofs.ProgramGrammar
import BlockChart.Proofs.BlockImage
import BlockChart.Proofs.ColumnAggregates
import BlockChart.Proofs.EditDistance
import BlockChart.Proofs.LooseEquality
import BlockChart.Proofs.NullEntries
import BlockChart.Proofs.ReadOnly
import BlockChart.Proofs.DocumentOrder
import BlockChart.Proofs.RecordTable
import BlockChart.Proofs.VariableBinding
import BlockChart.Proofs.Anchoring
import BlockChart.Proofs.TightHull
import BlockChart.Proofs.PlacedGroups
import BlockChart.Proofs.CircularChains
import BlockChart.Proofs.OlderBodies
