import BlockChart.Number.Shortest

namespace BlockChart

/-!
# How numbers are written

Three layouts over the same shortest digits:

* `plainText`: positional, never an exponent, the sign of zero kept; used where a
  number is reported exactly;
* `chartText`: positional, zero unsigned, infinities spelled out; used inside the
  drawing and when a number becomes text;
* `jsonText`: at least one decimal, an exponent outside `1e-5 ≤ |x| < 1e16`; used
  in serialized programs and values.
-/

namespace Decimal

/-- Positional notation without trailing zeros: `12`, `0.5`, `1200`. -/
def positional (d : Decimal) : String :=
  let digits := d.digits
  if 0 ≤ d.exponent then
    String.ofList (digits ++ List.replicate d.exponent.toNat '0')
  else
    let places := (-d.exponent).toNat
    let padded := List.replicate (places + 1 - digits.length) '0' ++ digits
    let whole := padded.length - places
    String.ofList (padded.take whole ++ '.' :: padded.drop whole)

/-- One digit before the point and a signed exponent: `1e+16`, `1.5e-7`. -/
def scientific (d : Decimal) : String :=
  let digits := d.digits
  let lead := d.exponent + digits.length - 1
  let power := (if 0 ≤ lead then "e+" else "e-") ++ toString lead.natAbs
  let fraction := digits.drop 1
  let point := if fraction.isEmpty then [] else ['.']
  String.ofList (digits.take 1 ++ point ++ fraction) ++ power

end Decimal

/-- Sign and shortest digits of a finite number. -/
def signedDecimal? (tie : TieRule) (x : Float) : Option (Bool × Decimal) :=
  (Binary.ofFloat? x).map fun b => (signBit x, b.shortest tie)

/-- Exact report of a number: `-0`, `0.0000001`, `inf`, `NaN`. -/
def plainText (x : Float) : String :=
  match signedDecimal? .up x with
  | some (negative, d) => (if negative then "-" else "") ++ d.positional
  | none => if x.isNaN then "NaN" else if signBit x then "-inf" else "inf"

/-- Text of a number in the drawing and in joined text: `0`, `0.0000001`,
    `Infinity`, `NaN`. -/
def chartText (x : Float) : String :=
  if x == 0 then "0"
  else match signedDecimal? .up x with
    | some (negative, d) => (if negative then "-" else "") ++ d.positional
    | none => if x.isNaN then "NaN" else if signBit x then "-Infinity" else "Infinity"

/-- Text of a finite number in JSON: `2.0`, `0.00001`, `1e+16`, `-0.0`.  JSON has
    no other numbers, so for those there is no text. -/
def jsonText? (x : Float) : Option String :=
  (signedDecimal? .toEven x).map fun (negative, d) =>
    let lead := d.exponent + d.digits.length - 1
    let body :=
      if d.coefficient = 0 then "0.0"
      else if -5 ≤ lead ∧ lead < 16 then
        if 0 ≤ d.exponent then d.positional ++ ".0" else d.positional
      else d.scientific
    (if negative then "-" else "") ++ body

end BlockChart
