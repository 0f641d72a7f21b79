import BlockChart.Number.Arithmetic
import BlockChart.Number.Layout

namespace BlockChart

/-!
# Scalars

The numbers that boxes and transforms are made of.  Geometry is written once over
the class `Scalar`; drawings use doubles, and the same definitions can be read over
exact numbers.  `NumberText` is how such numbers appear in attributes.
-/

/-- Numbers with the operations that boxes need. -/
class Scalar (α : Type) extends Add α, Sub α, Mul α, Div α, Neg α, OfScientific α where
  /-- A count as a number. -/
  ofCount : Nat → α
  /-- The smaller of two numbers. -/
  least : α → α → α
  /-- The larger of two numbers. -/
  greatest : α → α → α
  /-- The number, or the top of the scale in place of not-a-number. -/
  orTop : α → α
  /-- The number, or the bottom of the scale in place of not-a-number. -/
  orBottom : α → α
  /-- Sine and cosine of an angle in degrees. -/
  sinCos : α → α × α

/-- Numbers with a text form. -/
class NumberText (α : Type) where
  /-- The text of a number. -/
  write : α → String
  /-- The number of a text that is one. -/
  read? : String → Option α
  /-- What stands for a number that cannot be read. -/
  unreadable : α

/-- Degrees in radians. -/
def radians (degrees : Float) : Float :=
  degrees * (3.141592653589793 / 180)

instance : Scalar Float where
  ofCount := Float.ofNat
  least := leastNumber
  greatest := greatestNumber
  orTop := leastNumber infinity
  orBottom := greatestNumber (-infinity)
  sinCos degrees := ((radians degrees).sin, (radians degrees).cos)

instance : NumberText Float where
  write := chartText
  read? := readFloat?
  unreadable := notANumber

end BlockChart
