import BlockChart.Geometry.Transform
import BlockChart.Json.Basic
import BlockChart.Scope

namespace BlockChart

/-!
# Drawings

A drawing is an arena of elements.  Element 0 is the root; every other element names
its parent and stands among the children of that parent.  Elements are only ever
added; writing to an element that does not exist changes nothing.
-/

/-- An element of the drawing. -/
structure Element where
  tag : String
  attributes : List (String × String)
  style : List (String × String)
  text : Option String
  parent : Option ElementId
  children : List ElementId
  deriving Repr, DecidableEq

/-- An element with nothing but a tag and a parent. -/
def Element.plain (tag : String) (parent : Option ElementId) : Element :=
  ⟨tag, [], [], none, parent, []⟩

/-- The arena of elements. -/
structure Drawing where
  elements : Array Element
  deriving Repr, DecidableEq

namespace Drawing

/-- The root of every drawing. -/
def root : ElementId := 0

/-- The element of an id. -/
def get? (d : Drawing) (id : ElementId) : Option Element :=
  d.elements[id]?

/-- Changes an element, if there is one of that id. -/
def modify (d : Drawing) (id : ElementId) (change : Element → Element) : Drawing :=
  ⟨d.elements.modify id change⟩

/-- **Adds an element** below a parent, and returns its id.  The new element is
    last among the children of the parent; a parent that does not exist has none. -/
def append (d : Drawing) (parent : ElementId) (tag : String) : ElementId × Drawing :=
  let id := d.elements.size
  let added : Drawing := ⟨d.elements.push (.plain tag (some parent))⟩
  (id, added.modify parent fun e => { e with children := e.children ++ [id] })

/-- Sets an attribute: in its place if it is there, else after the others. -/
def setAttribute (d : Drawing) (id : ElementId) (name value : String) : Drawing :=
  d.modify id fun e => { e with attributes := upsertEntry name value e.attributes }

/-- Sets a style property: in its place if it is there, else after the others. -/
def setStyle (d : Drawing) (id : ElementId) (name value : String) : Drawing :=
  d.modify id fun e => { e with style := upsertEntry name value e.style }

/-- Sets the text content. -/
def setText (d : Drawing) (id : ElementId) (s : String) : Drawing :=
  d.modify id fun e => { e with text := some s }

/-- **The empty canvas** of a size: the root, and an invisible backdrop that gives
    the canvas its extent before anything is drawn. -/
def canvas (width height : Float) : Drawing :=
  let w := chartText width
  let h := chartText height
  let bare : Drawing := ⟨#[.plain "svg" none]⟩
  let sized := (bare.setAttribute root "width" w).setAttribute root "height" h
  let (backdrop, d) := sized.append root "rect"
  let d := (d.setAttribute backdrop "width" w).setAttribute backdrop "height" h
  (d.setAttribute backdrop "fill" "transparent").setAttribute backdrop "stroke" "none"

end Drawing

end BlockChart
