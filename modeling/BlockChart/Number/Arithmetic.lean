import BlockChart.Number.Reader

namespace BlockChart

/-!
# Arithmetic on doubles

The operations that charts need beyond the built-in ones: extremes that ignore
not-a-number, the remainder that keeps the sign of the dividend, and the whole
number that a double stands for.
-/

/-- The smaller of two numbers.  Not-a-number gives way to the other, and of two
    equal numbers the first is kept. -/
def leastNumber (a b : Float) : Float :=
  if a.isNaN then b else if b < a then b else a

/-- The larger of two numbers.  Not-a-number gives way to the other, and of two
    equal numbers the first is kept. -/
def greatestNumber (a b : Float) : Float :=
  if a.isNaN then b else if a < b then b else a

/-- The whole number that a magnitude equals, if it is whole. -/
def Binary.whole? (b : Binary) : Option Nat :=
  if 0 ≤ b.exponent then some (b.mantissa * Nat.pow 2 b.exponent.toNat)
  else
    let unit := Nat.pow 2 (-b.exponent).toNat
    if b.mantissa % unit = 0 then some (b.mantissa / unit) else none

/-- The remainder of a division that is truncated toward zero; exact, and of the
    sign of the dividend.  There is none for an infinite dividend or a zero
    divisor. -/
def remainder (a b : Float) : Float :=
  match Binary.ofFloat? a, Binary.ofFloat? b with
  | some x, some y =>
    if y.mantissa = 0 then notANumber
    else
      let unit := min x.exponent y.exponent
      let dividend := x.mantissa * Nat.pow 2 (x.exponent - unit).toNat
      let divisor := y.mantissa * Nat.pow 2 (y.exponent - unit).toNat
      let rest := (Float.ofNat (dividend % divisor)).scaleB unit
      if signBit a then -rest else rest
  | some _, none => if b.isNaN then notANumber else a
  | none, _ => notANumber

end BlockChart
