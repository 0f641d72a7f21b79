import BlockChart.Drawing.Tree

namespace BlockChart

/-!
# Bounding boxes

Circles, rectangles and texts have a box of their own; the box of an element is the
box around its own and those of its children, each child's box mapped through the
transform that the child carries.  The transform of the element itself does not
count.  Texts are measured with a fixed advance per character.
-/

/-- The size of the font. -/
def fontSize {α : Type} [Scalar α] : α := 16.0

/-- The part of the font size that a character advances. -/
def charAdvance {α : Type} [Scalar α] : α := 0.6

/-- The part of the font size above the base line. -/
def ascent {α : Type} [Scalar α] : α := 0.8

namespace Element

variable {α : Type} [Scalar α] [NumberText α]

/-- The number in an attribute, zero if it is missing or no number. -/
def number (e : Element) (name : String) : α :=
  ((lookupEntry name e.attributes).bind fun s => NumberText.read? (trimmed s)).getD 0.0

/-- **The box of a shape** in its own coordinates. -/
def shapeBox? (e : Element) : Option (Box α) :=
  match e.tag with
  | "circle" =>
    let r : α := e.number "r"
    some ⟨e.number "cx" - r, e.number "cy" - r, 2.0 * r, 2.0 * r⟩
  | "rect" => some ⟨e.number "x", e.number "y", e.number "width", e.number "height"⟩
  | "text" =>
    let chars := (e.text.map String.length).getD 0
    some ⟨e.number "x", e.number "y" - ascent * fontSize,
      Scalar.ofCount chars * charAdvance * fontSize, fontSize⟩
  | _ => none

/-- The transform that an element carries; one that cannot be read is none. -/
def transform? (e : Element) : Option (Transform α) :=
  (lookupEntry "transform" e.attributes).bind fun s => (Transform.parse s).toOption

/-- A box in the coordinates of an element, seen from outside that element. -/
def placeBox (e : Element) (b : Box α) : Box α :=
  match (e.transform? : Option (Transform α)) with
  | some t => t.mapBox b
  | none => b

end Element

namespace Tree

variable {α : Type} [Scalar α] [NumberText α]

/-- The box around an optional box and another one. -/
def joinBox? (a : Option (Box α)) (b : Box α) : Option (Box α) :=
  match a with
  | some a => some (a.union b)
  | none => some b

mutual

/-- **The box of the content** of a tree, none if nothing in it has a box. -/
def box? : Tree → Option (Box α)
  | .node _ e children => boxFrom? e.shapeBox? children

/-- The box around a box found so far and those of the children that are left. -/
def boxFrom? (found : Option (Box α)) : List Tree → Option (Box α)
  | [] => found
  | .node id e grandchildren :: rest =>
    match box? (.node id e grandchildren) with
    | some b => boxFrom? (joinBox? found (e.placeBox b)) rest
    | none => boxFrom? found rest

end

end Tree

namespace Drawing

/-- **The bounding box** of an element, the zero box if it has no content. -/
def bounds {α : Type} [Scalar α] [NumberText α] (d : Drawing) (id : ElementId) : Box α :=
  ((d.tree? id).bind Tree.box?).getD .zero

end Drawing

end BlockChart
