import BlockChart.Drawing.Bounds
import BlockChart.Scope

namespace BlockChart

/-!
# Actions on a session

A session is what a running program changes: its scopes, its drawing, how deeply its
nodes are nested at the moment, the brackets that did not find their own drawing
context again, and the writes that found no element.  An `Action` reads and changes a
session and gives a result or a fault; after a fault the session is the one that the
fault left behind.

* `Action.withContext` runs an action inside a drawing context;
* `Action.inFreshFrame` runs an action in a frame of its own, which is released
  whatever happens;
* `Action.nested` counts a level of nesting against the limit.
-/

/-- The state of a running program. -/
structure Session where
  scopes : Scopes
  drawing : Drawing
  depth : Nat
  /-- Where a bracket took off another context than it had put on: the one put on,
      and the one taken off. -/
  imbalances : List (ElementId × ElementId)
  /-- The elements that were written to and do not exist. -/
  strays : List ElementId
  deriving Repr

/-- **A session at its start**: the root frame holds the table, and draws into the
    root of the drawing. -/
def Session.start (table : Table) (drawing : Drawing) : Session :=
  let scopes := Scopes.new table
  ⟨(scopes.push Scopes.root Drawing.root).toOption.getD scopes, drawing, 0, [], []⟩

/-- The session after a write to an element has given a drawing.  A write to an element
    that the drawing does not have goes astray. -/
def Session.drawn (s : Session) (target : ElementId) (drawing : Drawing) : Session :=
  { s with
    drawing
    strays := if target < drawing.elements.size then s.strays else s.strays ++ [target] }

/-- A computation on a session that may fail. -/
def Action (α : Type) : Type :=
  Session → Except Fault α × Session

namespace Action

/-- Runs an action. -/
def run {α : Type} (a : Action α) (s : Session) : Except Fault α × Session :=
  a s

instance : Monad Action where
  pure x := fun s => (.ok x, s)
  bind a f := fun s =>
    match a s with
    | (.ok x, s) => f x s
    | (.error e, s) => (.error e, s)

/-- Fails and changes nothing. -/
def fail {α : Type} (fault : Fault) : Action α :=
  fun s => (.error fault, s)

/-- A result that does not depend on the session. -/
def ofExcept {α : Type} (r : Except Fault α) : Action α :=
  fun s => (r, s)

/-! ### Scopes -/

/-- Reads the scopes. -/
def readScopes {α : Type} (f : Scopes → Except Fault α) : Action α :=
  fun s => (f s.scopes, s)

/-- Changes the scopes; a change that fails leaves them as they are. -/
def changeScopes {α : Type} (f : Scopes → Except Fault (α × Scopes)) : Action α :=
  fun s =>
    match f s.scopes with
    | .ok (x, scopes) => (.ok x, { s with scopes })
    | .error e => (.error e, s)

/-- The innermost drawing context. -/
def top (f : FrameId) : Action ElementId :=
  readScopes (·.top f)

/-- Puts a drawing context on the stack of a frame. -/
def push (f : FrameId) (c : ElementId) : Action Unit :=
  changeScopes fun s => (s.push f c).map ((), ·)

/-- Takes the innermost drawing context off its stack. -/
def pop (f : FrameId) : Action ElementId :=
  changeScopes (·.pop f)

/-- Binds a variable. -/
def assign (f : FrameId) (name : String) (v : Value) : Action Unit :=
  changeScopes fun s => (s.assign f name v).map ((), ·)

/-- The value of a variable. -/
def lookup (f : FrameId) (name : String) : Action Value :=
  readScopes (·.lookup f name)

/-- The table. -/
def table (f : FrameId) : Action Table :=
  readScopes (·.table f)

/-! ### The drawing -/

/-- Writes to an element of the drawing. -/
def write (id : ElementId) (f : Drawing → Drawing) : Action Unit :=
  fun s => (.ok (), s.drawn id (f s.drawing))

/-- Adds an element. -/
def append (parent : ElementId) (tag : String) : Action ElementId :=
  fun s =>
    let (id, drawing) := s.drawing.append parent tag
    (.ok id, s.drawn parent drawing)

/-- Sets an attribute. -/
def setAttribute (id : ElementId) (name value : String) : Action Unit :=
  write id (·.setAttribute id name value)

/-- Sets a style property. -/
def setStyle (id : ElementId) (name value : String) : Action Unit :=
  write id (·.setStyle id name value)

/-- Sets the text content. -/
def setText (id : ElementId) (text : String) : Action Unit :=
  write id (·.setText id text)

/-- The bounding box of an element. -/
def bounds (id : ElementId) : Action (Box Float) :=
  fun s => (.ok (s.drawing.bounds id), s)

/-! ### Brackets -/

/-- Takes note of a bracket that took off another context than it had put on. -/
def noteImbalance (pushed popped : ElementId) : Action Unit :=
  fun s =>
    if popped = pushed then (.ok (), s)
    else (.ok (), { s with imbalances := s.imbalances ++ [(pushed, popped)] })

/-- **Runs an action inside a drawing context** of a frame, and takes the context
    off again.  After a fault in the action it stays on. -/
def withContext (f : FrameId) (c : ElementId) (body : Action Unit) : Action Unit := do
  push f c
  body
  let popped ← pop f
  noteImbalance c popped

/-- **Runs an action in a fresh frame** below `f`.  The frame is released after a
    result and after a fault. -/
def inFreshFrame {α : Type} (f : FrameId) (body : FrameId → Action α) : Action α :=
  fun s =>
    let (g, scopes) := s.scopes.openFrame f
    let (r, s) := body g { s with scopes }
    (r, { s with scopes := s.scopes.release g })

/-- **Counts a level of nesting** while an action runs; there may be `limit` levels. -/
def nested {α : Type} (limit : Nat) (body : Action α) : Action α :=
  fun s =>
    if limit ≤ s.depth then (.error (.recursionLimit limit), s)
    else
      let (r, s) := body { s with depth := s.depth + 1 }
      (r, { s with depth := s.depth - 1 })

end Action

end BlockChart
