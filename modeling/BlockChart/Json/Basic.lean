namespace BlockChart

/-!
# JSON values

Objects keep their entries in order.  Whole numbers that fit 64 bits stay apart
from all other numbers, since the two are printed differently.

* `Json.get?` looks a key up;
* `Json.mergeKeys` gives every object distinct keys: a repeated key keeps its first
  place and takes its last value;
* `Json.DistinctKeys` says that an object tree has no repeated key.
-/

/-- A JSON value. -/
inductive Json where
  | null
  | bool (b : Bool)
  | int (n : Int)
  | float (x : Float)
  | string (s : String)
  | array (items : List Json)
  | object (entries : List (String × Json))
  deriving Inhabited, Repr

/-- The value of the first entry with a key. -/
def lookupEntry {α : Type} (key : String) : List (String × α) → Option α
  | [] => none
  | (k, v) :: rest => if k = key then some v else lookupEntry key rest

/-- Sets the value of a key: in its place if it is there, else at the end. -/
def upsertEntry {α : Type} (key : String) (value : α) : List (String × α) → List (String × α)
  | [] => [(key, value)]
  | (k, v) :: rest =>
    if k = key then (k, value) :: rest else (k, v) :: upsertEntry key value rest

/-- Entries with distinct keys: each key stands where it first occurred and has the
    value that it had last. -/
def mergeEntries {α : Type} (entries : List (String × α)) : List (String × α) :=
  entries.foldl (fun merged (k, v) => upsertEntry k v merged) []

namespace Json

/-- The value of a key of an object; nothing else has keys. -/
def get? (key : String) : Json → Option Json
  | .object entries => lookupEntry key entries
  | _ => none

mutual

/-- Merges the repeated keys of every object in a value. -/
def mergeKeys : Json → Json
  | .array items => .array (mergeItems items)
  | .object entries => .object (mergeEntries (mergeMembers entries))
  | other => other

/-- Merges the repeated keys in each item. -/
def mergeItems : List Json → List Json
  | [] => []
  | v :: rest => v.mergeKeys :: mergeItems rest

/-- Merges the repeated keys in the value of each entry. -/
def mergeMembers : List (String × Json) → List (String × Json)
  | [] => []
  | (k, v) :: rest => (k, v.mergeKeys) :: mergeMembers rest

end

mutual

/-- No object in the value has a repeated key. -/
def DistinctKeys : Json → Prop
  | .array items => DistinctItems items
  | .object entries => (entries.map Prod.fst).Nodup ∧ DistinctMembers entries
  | _ => True

/-- No object in any item has a repeated key. -/
def DistinctItems : List Json → Prop
  | [] => True
  | v :: rest => v.DistinctKeys ∧ DistinctItems rest

/-- No object in the value of any entry has a repeated key. -/
def DistinctMembers : List (String × Json) → Prop
  | [] => True
  | (_, v) :: rest => v.DistinctKeys ∧ DistinctMembers rest

end

end Json

end BlockChart
