import BlockChart.Evaluation.Action

namespace BlockChart

/-!
# Meanings

What a node does when it is run in a frame: alone, or together with the chain after
it.  The operations are defined on the meanings of their inputs, so that the meaning
of a program is put together from the meanings of its parts.  An empty slot has no
meaning.
-/

/-- What a node does in a frame. -/
structure Meaning where
  /-- Runs the node alone. -/
  once : FrameId → Action Value
  /-- Runs the node and the chain after it, and gives the value of the last one. -/
  chain : FrameId → Action Value

/-- The meaning of a slot, none if it is empty. -/
abbrev Slot := Option Meaning

namespace Slot

/-- The value of an input that must be plugged. -/
def required (slot : Slot) (name : String) (f : FrameId) : Action Value :=
  match slot with
  | some m => m.once f
  | none => .fail (.missingPiece name)

/-- The value of an operand, zero if the slot is empty. -/
def operand (slot : Slot) (f : FrameId) : Action Value :=
  match slot with
  | some m => m.once f
  | none => pure (.num 0)

/-- The number of an input, zero if the slot is empty. -/
def number (slot : Slot) (f : FrameId) : Action Float := do
  return (← slot.operand f).toNumber

/-- Runs a chain that must be plugged. -/
def block (slot : Slot) (name : String) (f : FrameId) : Action Unit :=
  match slot with
  | some m => do let _ ← m.chain f
  | none => .fail (.missingPiece name)

/-- Runs a chain if it is plugged. -/
def blockIfAny (slot : Slot) (f : FrameId) : Action Unit :=
  match slot with
  | some m => do let _ ← m.chain f
  | none => pure ()

end Slot

namespace Meaning

/-- **The meaning of a node**: its step counts as a level of nesting, and the chain
    goes on with `next` in the same frame. -/
def node (limit : Nat) (step : FrameId → Action Value) (next : Slot) : Meaning :=
  let once (f : FrameId) := Action.nested limit (step f)
  { once
    chain := fun f => do
      let v ← once f
      match next with
      | some m => m.chain f
      | none => pure v }

/-- The meaning of an expression, which ends its chain. -/
def expression (limit : Nat) (step : FrameId → Action Value) : Meaning :=
  node limit step none

/-- The meaning of a statement; disabled, it does nothing and gives the unit. -/
def statement (limit : Nat) (disabled : Bool) (step : FrameId → Action Unit) (next : Slot) :
    Meaning :=
  node limit (fun f => if disabled then pure .unit else do step f; pure .unit) next

end Meaning

end BlockChart
