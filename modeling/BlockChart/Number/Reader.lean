import BlockChart.Number.Shortest

namespace BlockChart

/-!
# Reading decimal numbers

The number grammar of texts and attributes: an optional sign, then either digits
with an optional point (a digit on at least one side) and an optional exponent, or
one of the words `inf`, `infinity`, `nan` in any case.  Nothing may stand around
it.  A number is rounded to the nearest double; a too large one is infinite.
-/

/-- Positive infinity. -/
def infinity : Float := Float.ofBits 0x7ff0000000000000

/-- Not-a-number. -/
def notANumber : Float := Float.ofBits 0x7ff8000000000000

/-- The value of a list of decimal digits. -/
def digitsValue (cs : List Char) : Nat :=
  cs.foldl (fun n c => 10 * n + (c.toNat - '0'.toNat)) 0

/-- The double nearest to `coefficient * 10 ^ exponent`.  Far outside the range of
    doubles the answer is known without computing the power. -/
def nearestFloat (coefficient : Nat) (exponent : Int) : Float :=
  let lead := exponent + (Nat.toDigits 10 coefficient).length
  if coefficient = 0 ∨ lead < -400 then 0
  else if 400 < lead then infinity
  else if 0 ≤ exponent then Float.ofScientific coefficient false exponent.toNat
  else Float.ofScientific coefficient true (-exponent).toNat

/-- An optional sign: whether it was a minus, and what follows it. -/
def takeSign : List Char → Bool × List Char
  | '-' :: rest => (true, rest)
  | '+' :: rest => (false, rest)
  | rest => (false, rest)

/-- The digits at the front, and what follows them. -/
def takeDigits (cs : List Char) : List Char × List Char :=
  (cs.takeWhile Char.isDigit, cs.dropWhile Char.isDigit)

/-- An optional exponent that ends the text. -/
def readExponent? : List Char → Option Int
  | [] => some 0
  | c :: rest =>
    if c = 'e' ∨ c = 'E' then
      let (negative, digits) := takeSign rest
      if digits.isEmpty ∨ !digits.all Char.isDigit then none
      else some (if negative then -(digitsValue digits : Int) else digitsValue digits)
    else none

/-- Digits, point, digits, exponent, up to the end of the text. -/
def readMagnitude? (cs : List Char) : Option Float :=
  let (whole, afterWhole) := takeDigits cs
  let (fraction, rest) := match afterWhole with
    | '.' :: more => takeDigits more
    | _ => ([], afterWhole)
  if whole.isEmpty ∧ fraction.isEmpty then none
  else (readExponent? rest).map fun e =>
    nearestFloat (digitsValue (whole ++ fraction)) (e - fraction.length)

/-- The words for the numbers without digits. -/
def readWord? (cs : List Char) : Option Float :=
  match String.ofList (cs.map Char.toLower) with
  | "inf" => some infinity
  | "infinity" => some infinity
  | "nan" => some notANumber
  | _ => none

/-- **Reads a number**, `none` if the text is not exactly one. -/
def readFloat? (text : String) : Option Float :=
  let (negative, body) := takeSign text.toList
  let magnitude := (readMagnitude? body).orElse fun _ => readWord? body
  magnitude.map fun x => if negative then -x else x

end BlockChart
