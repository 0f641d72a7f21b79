import BlockChart.Json.Basic
import BlockChart.Number.Radix
import BlockChart.Number.Reader

namespace BlockChart

/-!
# YAML values

The values that a YAML document can denote.  A key of a mapping may be any value;
`Yaml.toJson?` is defined where all keys are texts.

A plain scalar, one without quotes, denotes what its spelling says
(`Yaml.ofPlain?`): nothing, a truth value, a whole number, any other number, or
else its own text.
-/

/-- A YAML value. -/
inductive Yaml where
  | null
  | bool (b : Bool)
  | int (n : Int)
  | float (x : Float)
  | string (s : String)
  | sequence (items : List Yaml)
  | mapping (entries : List (Yaml × Yaml))
  deriving Inhabited, Repr

namespace Yaml

/-! ### Plain scalars -/

/-- Digits after an optional mark of the base: `0x`, `0o`, `0b`, or none for ten. -/
def readMarked? : List Char → Option Nat
  | '0' :: 'x' :: digits => readDigits? 16 digits
  | '0' :: 'o' :: digits => readDigits? 8 digits
  | '0' :: 'b' :: digits => readDigits? 2 digits
  | digits => readDigits? 10 digits

/-- Whether digits start with a zero that is not the only one.  They are text. -/
def isPadded (digits : List Char) : Bool :=
  match digits with
  | '0' :: rest => !rest.isEmpty && rest.all Char.isDigit
  | _ => false

/-- The whole number of a plain scalar: a sign, then marked digits. -/
def readWhole? (cs : List Char) : Option Int :=
  let (negative, digits) := takeSign cs
  if isPadded digits then none
  else (readMarked? digits).map fun n => if negative then -(n : Int) else n

/-- The number of a plain scalar that has no whole number: infinity and
    not-a-number by their names, else a finite decimal. -/
def readReal? (cs : List Char) : Option Float :=
  let (_, digits) := takeSign cs
  if isPadded digits then none
  else if [".inf", ".Inf", ".INF", "+.inf", "+.Inf", "+.INF"].contains (String.ofList cs) then
    some infinity
  else if ["-.inf", "-.Inf", "-.INF"].contains (String.ofList cs) then some (-infinity)
  else if [".nan", ".NaN", ".NAN"].contains (String.ofList cs) then some notANumber
  else (readFloat? (String.ofList cs)).filter Float.isFinite

/-- **The value of a plain scalar.**  A whole number that needs more than 64 bits but
    not more than 128 is refused; one that needs more still is the nearest double. -/
def ofPlain? (text : String) : Option Yaml :=
  if ["", "~", "null", "Null", "NULL"].contains text then some .null
  else if ["true", "True", "TRUE"].contains text then some (.bool true)
  else if ["false", "False", "FALSE"].contains text then some (.bool false)
  else
    let wide : Option Int := (readWhole? text.toList).filter fun n =>
      -(Nat.pow 2 127 : Int) ≤ n ∧ n < Nat.pow 2 128
    match wide with
    | some n => if -(Nat.pow 2 63 : Int) ≤ n ∧ n < Nat.pow 2 64 then some (.int n) else none
    | none =>
      match readReal? text.toList with
      | some x => some (.float x)
      | none => some (.string text)

/-! ### As JSON -/

mutual

/-- The same value in JSON, which has neither infinities nor keys that are not
    texts: the former become null, the latter are refused. -/
def toJson? : Yaml → Option Json
  | .null => some .null
  | .bool b => some (.bool b)
  | .int n => some (.int n)
  | .float x => some (if x.isFinite then .float x else .null)
  | .string s => some (.string s)
  | .sequence items => (jsonItems? items).map .array
  | .mapping entries => (jsonEntries? entries).map .object

/-- Each item in JSON. -/
def jsonItems? : List Yaml → Option (List Json)
  | [] => some []
  | v :: rest => do
    let v ← v.toJson?
    let rest ← jsonItems? rest
    some (v :: rest)

/-- Each entry in JSON. -/
def jsonEntries? : List (Yaml × Yaml) → Option (List (String × Json))
  | [] => some []
  | (.string key, v) :: rest => do
    let v ← v.toJson?
    let rest ← jsonEntries? rest
    some ((key, v) :: rest)
  | _ => none

end

end Yaml

end BlockChart
