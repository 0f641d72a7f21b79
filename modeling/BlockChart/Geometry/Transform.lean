import BlockChart.Fault
import BlockChart.Geometry.Box
import BlockChart.Text.Blank

namespace BlockChart

/-!
# Transforms

A group of the drawing carries at most one transform: a shift, a rotation
about the origin or a scaling.  `Transform.text` writes it as an attribute,
`Transform.parse` reads it back; arguments may be divided by commas or white space.
-/

/-- A transform of the plane. -/
inductive Transform (α : Type) where
  | translate (x y : α)
  | rotate (degrees : α)
  | scale (factor : α)
  deriving Repr, DecidableEq

namespace Transform

variable {α : Type}

/-- Where a transform takes a point. -/
def apply [Scalar α] (t : Transform α) (p : Point α) : Point α :=
  match t with
  | translate x y => (p.1 + x, p.2 + y)
  | scale k => (p.1 * k, p.2 * k)
  | rotate degrees =>
    let (sin, cos) := Scalar.sinCos degrees
    (p.1 * cos - p.2 * sin, p.1 * sin + p.2 * cos)

/-- The box around a transformed box. -/
def mapBox [Scalar α] (t : Transform α) (b : Box α) : Box α :=
  b.image t.apply

/-- **The text of a transform**: `translate(45, 20)`, `rotate(90)`, `scale(2)`. -/
def text [NumberText α] : Transform α → String
  | translate x y => "translate(" ++ NumberText.write x ++ ", " ++ NumberText.write y ++ ")"
  | rotate degrees => "rotate(" ++ NumberText.write degrees ++ ")"
  | scale factor => "scale(" ++ NumberText.write factor ++ ")"

/-- Whether a character divides arguments. -/
def isDivider (c : Char) : Bool :=
  c == ',' || isBlank c

/-- The maximal runs of characters that are no dividers; `word` holds the current
    run in reverse. -/
def words (word : List Char) : List Char → List (List Char)
  | [] => if word.isEmpty then [] else [word.reverse]
  | c :: rest =>
    if isDivider c then
      if word.isEmpty then words [] rest else word.reverse :: words [] rest
    else words (c :: word) rest

/-- The arguments between the parentheses. -/
def arguments [NumberText α] (cs : List Char) : List α :=
  (words [] cs).map fun w =>
    (NumberText.read? (String.ofList w)).getD NumberText.unreadable

/-- The transform of a name and its arguments. -/
def ofCall? [Scalar α] (name : String) (args : List α) : Option (Transform α) :=
  match name, args with
  | "translate", [x] => some (translate x 0.0)
  | "translate", [x, y] => some (translate x y)
  | "rotate", [degrees] => some (rotate degrees)
  | "scale", [factor] => some (scale factor)
  | _, _ => none

/-- **Reads a transform.** -/
def parse [Scalar α] [NumberText α] (source : String) : Except Fault (Transform α) :=
  let cs := trimChars source.toList
  let shown := String.ofList cs
  match cs.dropWhile (· != '(') with
  | [] => .error (.transformUnopened shown)
  | _ :: inside =>
    if cs.getLast? = some ')' then
      let name := String.ofList (trimChars (cs.takeWhile (· != '(')))
      match ofCall? name (arguments inside.dropLast) with
      | some t => .ok t
      | none => .error (.unsupportedTransform shown)
    else .error (.transformUnclosed shown)

end Transform

end BlockChart
