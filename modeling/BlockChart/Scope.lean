import BlockChart.Fault
import BlockChart.Table
import BlockChart.Text.LowerCase

namespace BlockChart

/-!
# Scopes

Scopes are frames in an arena, each but the root with a parent.  A frame binds
variables, whose names are compared in lower case, and keeps a stack of drawing
contexts.  Look-ups start at a frame and go on to its parent, and so on; the root
holds the table.

* `Scopes.openFrame` puts a frame on top of the arena, `Scopes.release` drops a
  frame and all above it;
* `Scopes.top`, `Scopes.push`, `Scopes.pop` work on the drawing contexts;
* `Scopes.assign` and `Scopes.lookup` work on variables;
* `Scopes.cell` and `Scopes.columnIndex` read the table.

A handle is the place of its frame in the arena.  Using one whose frame has been
released is the fault `deadFrame`.
-/

/-- The place of a frame in the arena. -/
abbrev FrameId := Nat

/-- The place of an element in the drawing. -/
abbrev ElementId := Nat

/-- One frame.  The top of the stack of contexts is the head of the list. -/
structure Frame where
  table : Option Table
  bindings : List (String × Value)
  contexts : List ElementId
  parent : Option FrameId
  deriving Repr

/-- A frame below `parent` that binds nothing. -/
def Frame.fresh (parent : FrameId) : Frame :=
  ⟨none, [], [], some parent⟩

/-- The arena of frames. -/
structure Scopes where
  frames : Array Frame
  deriving Repr

namespace Scopes

/-- The handle of the root. -/
def root : FrameId := 0

/-- The arena with only the root, which holds the table. -/
def new (table : Table) : Scopes :=
  ⟨#[⟨some table, [], [], none⟩]⟩

/-- The number of frames. -/
def depth (s : Scopes) : Nat := s.frames.size

/-- A new frame on top of the arena, and its handle. -/
def openFrame (s : Scopes) (parent : FrameId) : FrameId × Scopes :=
  (s.frames.size, ⟨s.frames.push (.fresh parent)⟩)

/-- Drops a frame and all above it; the root stays. -/
def release (s : Scopes) (f : FrameId) : Scopes :=
  ⟨s.frames.take (max f 1)⟩

/-- Changes one frame. -/
def modify (s : Scopes) (f : FrameId) (change : Frame → Frame) : Except Fault Scopes :=
  if f < s.frames.size then .ok ⟨s.frames.modify f change⟩ else .error .deadFrame

/-- The first frame from `f` upwards in which `pick` finds something, with what it
    found.  A chain that leaves the arena has no answer, nor has one that is longer
    than the arena: it would come back to itself. -/
def search {α : Type} (s : Scopes) (pick : Frame → Option α) :
    Nat → FrameId → Except Fault (Option (FrameId × α))
  | 0, _ => .error .deadFrame
  | fuel + 1, f =>
    match s.frames[f]? with
    | none => .error .deadFrame
    | some frame =>
      match pick frame with
      | some a => .ok (some (f, a))
      | none =>
        match frame.parent with
        | none => .ok none
        | some p => search s pick fuel p

/-- Searches the whole chain of a frame. -/
def find {α : Type} (s : Scopes) (pick : Frame → Option α) (f : FrameId) :
    Except Fault (Option (FrameId × α)) :=
  s.search pick s.frames.size f

/-! ### Drawing contexts -/

/-- Puts a context on the stack of a frame. -/
def push (s : Scopes) (f : FrameId) (c : ElementId) : Except Fault Scopes :=
  s.modify f fun frame => { frame with contexts := c :: frame.contexts }

/-- **The innermost context**: the top of the nearest stack that is not empty. -/
def top (s : Scopes) (f : FrameId) : Except Fault ElementId := do
  match ← s.find (·.contexts.head?) f with
  | some (_, c) => .ok c
  | none => .error .emptyContextStack

/-- **Takes the innermost context** off the stack that it is on. -/
def pop (s : Scopes) (f : FrameId) : Except Fault (ElementId × Scopes) := do
  match ← s.find (·.contexts.head?) f with
  | some (owner, c) =>
    let s ← s.modify owner fun frame => { frame with contexts := frame.contexts.tail }
    .ok (c, s)
  | none => .error .emptyContextStack

/-! ### Variables -/

/-- **Binds a variable** in a frame. -/
def assign (s : Scopes) (f : FrameId) (name : String) (v : Value) : Except Fault Scopes :=
  s.modify f fun frame =>
    { frame with bindings := upsertEntry (lowerCase name) v frame.bindings }

/-- **The value of a variable**, bound in the frame or in the nearest one above it. -/
def lookup (s : Scopes) (f : FrameId) (name : String) : Except Fault Value := do
  match ← s.find (fun frame => lookupEntry (lowerCase name) frame.bindings) f with
  | some (_, v) => .ok v
  | none => .error (.undefinedVariable name)

/-! ### The table -/

/-- The table that a frame sees. -/
def table (s : Scopes) (f : FrameId) : Except Fault Table := do
  match ← s.find (·.table) f with
  | some (_, t) => .ok t
  | none => .ok .empty

/-- The first column of a name, in any case. -/
def columnNamed? (t : Table) (name : String) : Option Nat :=
  t.columns.findIdx? fun column => lowerCase column = lowerCase name

/-- The column that a value refers to: by index, or failing that by name. -/
def columnOf (t : Table) (column : Value) : Except Fault Nat :=
  match column.index? with
  | some i => .ok i
  | none =>
    let named := match column with
      | .str name => columnNamed? t name
      | _ => none
    match named with
    | some i => .ok i
    | none => .error (.indexOutOfRange "column" column.text t.columns.length)

/-- The index of a column in the table that a frame sees; an index needs no table. -/
def columnIndex (s : Scopes) (f : FrameId) (column : Value) : Except Fault Nat :=
  match column.index? with
  | some i => .ok i
  | none => do columnOf (← s.table f) column

/-- The cell that two values refer to. -/
def cellOf (t : Table) (row column : Value) : Except Fault Value := do
  match row.index?.bind fun i => t.rows[i]? with
  | none => .error (.indexOutOfRange "row" row.text t.rows.length)
  | some cells =>
    let c ← columnOf t column
    match cells[c]? with
    | some v => .ok v
    | none => .error (.indexOutOfRange "column" column.text cells.length)

/-- **A cell** of the table that a frame sees. -/
def cell (s : Scopes) (f : FrameId) (row column : Value) : Except Fault Value := do
  cellOf (← s.table f) row column

end Scopes

end BlockChart
