import BlockChart.Evaluation.Meaning
import BlockChart.Geometry.Anchor
import BlockChart.Program.Basic

namespace BlockChart

/-!
# Statements

What each statement does, given the meanings of its inputs.  Inputs are evaluated
before anything is drawn, but for `margin` and `align`, which measure their
surroundings first.
-/

/-- **The tags of layout elements**: of the group that `align` makes, and of the filler that
    `margin` makes. -/
structure LayoutTags where
  aligned : String
  filler : String

/-- The tags that drawings have. -/
def LayoutTags.plain : LayoutTags :=
  ⟨"g", "rect"⟩

namespace Step

/-! ### Variables and flow -/

/-- Binds a variable in the frame. -/
def store (name : String) (value : Slot) (f : FrameId) : Action Unit := do
  let v ← value.required "store.value" f
  Action.assign f name v

/-- **The loop over a list of items**: each runs the child in a frame of its own that
    binds the item. -/
def forItems (name : String) (child : Slot) (f : FrameId) : List Value → Action Unit
  | [] => pure ()
  | item :: rest => do
    Action.inFreshFrame f fun g => do
      Action.assign g name item
      child.block "forEach.child" g
    forItems name child f rest

/-- Runs the child for each item of a set. -/
def forEach (set : Slot) (name : String) (child : Slot) (f : FrameId) : Action Unit := do
  let v ← set.required "forEach.set" f
  forItems name child f v.toList

/-- Runs the child if the condition holds.  Without a child the condition is not
    looked at. -/
def conditional (condition child : Slot) (f : FrameId) : Action Unit :=
  match child with
  | none => pure ()
  | some body => do
    let v ← condition.required "conditional.condition" f
    if v.truthy then
      let _ ← body.chain f

/-! ### Style -/

/-- Colours the current context. -/
def color (paint : Paint) (color : String) (f : FrameId) : Action Unit := do
  let c ← Action.top f
  Action.setStyle c paint.name color

/-- Sets the opacity of the current context, given in percent. -/
def alpha (opacity : Opacity) (percent : Slot) (f : FrameId) : Action Unit := do
  let x := (← percent.required "alpha.alpha" f).toNumber
  let c ← Action.top f
  Action.setStyle c opacity.name (chartText (x / 100))

/-! ### Transforms -/

/-- A new group under the current context that carries a transform, with the child
    drawn inside it. -/
def wrap (t : Transform Float) (child : Slot) (name : String) (f : FrameId) : Action Unit := do
  let parent ← Action.top f
  let group ← Action.append parent "g"
  Action.setAttribute group "transform" t.text
  Action.withContext f group (child.block name f)

/-- Draws the child shifted. -/
def translate (x y child : Slot) (f : FrameId) : Action Unit := do
  let x ← x.number f
  let y ← y.number f
  wrap (.translate x y) child "translate.child" f

/-- Draws the child turned. -/
def rotate (degrees child : Slot) (f : FrameId) : Action Unit := do
  let v ← degrees.required "rotate.degrees" f
  wrap (.rotate v.toNumber) child "rotate.child" f

/-- Draws the child scaled. -/
def scale (factor child : Slot) (f : FrameId) : Action Unit := do
  let v ← factor.required "scale.factor" f
  wrap (.scale v.toNumber) child "scale.child" f

/-! ### Layout -/

/-- Draws the child in a new group, then shifts the group to the anchors. -/
def align (tags : LayoutTags) (horizontal vertical : String) (child : Slot) (f : FrameId) :
    Action Unit := do
  let parent ← Action.top f
  let outer ← Action.bounds parent
  let group ← Action.append parent tags.aligned
  Action.withContext f group (child.blockIfAny f)
  let inner ← Action.bounds group
  let (x, y) := Anchor.offset horizontal vertical outer inner
  Action.setAttribute group "transform" (Transform.translate x y).text

/-- Draws the child in a new group that is inset on every side, with an invisible
    filler that gives the group its extent. -/
def margin (tags : LayoutTags) (size child : Slot) (f : FrameId) : Action Unit := do
  let parent ← Action.top f
  let outer ← Action.bounds parent
  let m := (← size.required "margin.size" f).toNumber
  let group ← Action.append parent "g"
  Action.setAttribute group "transform" (Transform.translate m m).text
  let filler ← Action.append group tags.filler
  Action.setAttribute filler "fill" "transparent"
  Action.setAttribute filler "stroke" "none"
  Action.setAttribute filler "width" (chartText (outer.width - 2 * m))
  Action.setAttribute filler "height" (chartText (outer.height - 2 * m))
  Action.withContext f group (child.blockIfAny f)

/-! ### Shapes -/

/-- A shape in a group of its own under the current context.  `dress` completes the
    shape, and the child is drawn into the group. -/
def shape (tag : String) (dress : ElementId → Action Unit) (child : Slot) (f : FrameId) :
    Action Unit := do
  let parent ← Action.top f
  let group ← Action.append parent "g"
  let element ← Action.append group tag
  dress element
  match child with
  | some body => Action.withContext f group do let _ ← body.chain f
  | none => pure ()

/-- A circle. -/
def circle (radius child : Slot) (f : FrameId) : Action Unit := do
  let r ← radius.required "circle.radius" f
  shape "circle" (fun e => Action.setAttribute e "r" r.text) child f

/-- A rectangle. -/
def rect (width height child : Slot) (f : FrameId) : Action Unit := do
  let w ← width.required "rect.width" f
  let h ← height.required "rect.height" f
  let dress (e : ElementId) : Action Unit := do
    Action.setAttribute e "width" w.text
    Action.setAttribute e "height" h.text
  shape "rect" dress child f

/-- A line of text. -/
def text (content child : Slot) (f : FrameId) : Action Unit := do
  let v ← content.required "text.text" f
  let dress (e : ElementId) : Action Unit := do
    Action.setStyle e "text-anchor" "start"
    Action.setText e v.text
  shape "text" dress child f

end Step

end BlockChart
