namespace BlockChart

/-!
# The fewest digits that read back

A finite binary number is `mantissa * 2 ^ exponent`.  The reals that round to it
form an interval around it, whose ends belong to it exactly when the mantissa is
even.  `Binary.shortest` looks for the coarsest decimal grid with a point in that
interval:

* `Binary.ofFloat?` splits a finite number into sign, mantissa and exponent;
* `Binary.onGrid` tries the two neighbours of the value on one decimal grid;
* `Binary.shortest` takes the first grid that has a hit, the nearer neighbour of
  two hits, and lets `TieRule` settle an exact tie.

Everything is exact arithmetic on natural numbers.
-/

/-- A non-negative decimal number `coefficient * 10 ^ exponent`. -/
structure Decimal where
  coefficient : Nat
  exponent : Int
  deriving Repr, DecidableEq

/-- A non-negative binary number `mantissa * 2 ^ exponent`.  `lowest` marks the
    smallest exponent of the format, where the spacing below a power of two is the
    same as above it. -/
structure Binary where
  mantissa : Nat
  exponent : Int
  lowest : Bool
  deriving Repr, DecidableEq

/-- Which of two decimals equally far from the value is written. -/
inductive TieRule where
  | up
  | toEven
  deriving Repr, DecidableEq

/-- The sign bit of a number; set for negative zero too. -/
def signBit (x : Float) : Bool :=
  x.toBits >>> 63 == 1

/-- The magnitude of a finite number, `none` for infinities and not-a-number. -/
def Binary.ofFloat? (x : Float) : Option Binary :=
  let bits := x.toBits.toNat
  let fraction : Nat := bits % Nat.pow 2 52
  let biased : Nat := bits / Nat.pow 2 52 % Nat.pow 2 11
  if biased = 2047 then none
  else if biased = 0 then some ⟨fraction, -1074, true⟩
  else some ⟨Nat.pow 2 52 + fraction, (biased : Int) - 1075, biased = 1⟩

namespace Decimal

/-- Drops trailing zeros of the coefficient, at most `fuel` of them. -/
def trimZeros (fuel : Nat) (d : Decimal) : Decimal :=
  match fuel with
  | 0 => d
  | fuel + 1 =>
    if d.coefficient ≠ 0 ∧ d.coefficient % 10 = 0 then
      trimZeros fuel ⟨d.coefficient / 10, d.exponent + 1⟩
    else d

/-- The coefficient's decimal digits. -/
def digits (d : Decimal) : List Char :=
  Nat.toDigits 10 d.coefficient

end Decimal

namespace Binary

/-- Four times the mantissa of the value and of the two ends of its interval, so
    that all three are whole. -/
def quarters (b : Binary) : Nat × Nat × Nat :=
  let value := 4 * b.mantissa
  let low := if b.mantissa = Nat.pow 2 52 ∧ !b.lowest then value - 1 else value - 2
  (low, value, value + 2)

/-- The unit of `quarters`, which is `2 ^ (exponent - 2)`, as a fraction. -/
def quarterUnit (b : Binary) : Nat × Nat :=
  (Nat.pow 2 (b.exponent - 2).toNat, Nat.pow 2 (2 - b.exponent).toNat)

/-- The exponent of the leading decimal digit of a positive value: the number of
    digits before the point, less one.  Shifting by 400 places first makes every
    positive double at least one. -/
def leadingExponent (b : Binary) : Int :=
  let (_, value, _) := b.quarters
  let (num, den) := b.quarterUnit
  let shifted := value * num * Nat.pow 10 400 / den
  ((Nat.toDigits 10 shifted).length : Int) - 401

/-- The multiple of `10 ^ grid` that reads back as the value and is nearest to
    it, if one of its two neighbours on that grid does. -/
def onGrid (tie : TieRule) (b : Binary) (grid : Int) : Option Nat :=
  let (low, value, high) := b.quarters
  let (num, den) := b.quarterUnit
  let up := num * Nat.pow 10 (-grid).toNat
  let step := den * Nat.pow 10 grid.toNat
  let inside (d : Nat) : Bool :=
    if b.mantissa % 2 = 0 then low * up ≤ d * step ∧ d * step ≤ high * up
    else low * up < d * step ∧ d * step < high * up
  let below := value * up / step
  let above := below + 1
  match inside below, inside above with
  | false, false => none
  | true, false => some below
  | false, true => some above
  | true, true =>
    let short := value * up - below * step
    let beyond := above * step - value * up
    if short < beyond then some below
    else if beyond < short then some above
    else match tie with
      | .up => some above
      | .toEven => if below % 2 = 0 then some below else some above

/-- **The shortest decimal.**  The fewest digits that read back as the value, the
    nearest of those to it; seventeen digits always suffice for a double. -/
def shortest (tie : TieRule) (b : Binary) : Decimal :=
  if b.mantissa = 0 then ⟨0, 0⟩
  else
    let lead := b.leadingExponent
    let found := (List.range 18).findSome? fun (n : Nat) =>
      let grid := lead - (n : Int)
      (b.onGrid tie grid).map fun d => (⟨d, grid⟩ : Decimal)
    (found.getD ⟨0, 0⟩).trimZeros 20

end Binary

end BlockChart
