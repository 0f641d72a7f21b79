import BlockChart.Json.Basic

namespace BlockChart

/-!
# TOML values

A TOML document is a table.  A table remembers how it came about, since this decides
who may still add to it:

* a header `[a.b]` makes the table `b` and, on the way, `a` if it is missing; a
  header may name a table once, and one that was only made on the way once more;
* a key `a.b` makes the table `a`; other dotted keys may add to it, headers may only
  go through it;
* a table in braces is closed;
* a header `[[a]]` adds a table to a list of tables, and later headers that go
  through `a` mean the last one.
-/

/-- How a table came about. -/
inductive Toml.Origin where
  /-- On the way to a table that a header names. -/
  | implied
  /-- By a header; the document itself counts as well. -/
  | header
  /-- By a dotted key. -/
  | dotted
  /-- In braces. -/
  | inline
  deriving DecidableEq, Repr

/-- A TOML value. -/
inductive Toml where
  | string (s : String)
  | int (n : Int)
  | float (x : Float)
  | bool (b : Bool)
  /-- A date, a time, or both. -/
  | moment
  | array (items : List Toml)
  | table (origin : Toml.Origin) (entries : List (String × Toml))
  /-- The tables that headers in double brackets have made, the last one first. -/
  | tables (items : List (List (String × Toml)))
  deriving Repr

namespace Toml

/-- The value of a key of a table; nothing else has keys. -/
def get? (key : String) : Toml → Option Toml
  | .table _ entries => lookupEntry key entries
  | _ => none

/-- The content of a table. -/
abbrev Entries := List (String × Toml)

/-- **Changes the table at the end of a path**, making the tables on the way that are
    missing.  `dotted` says that the path belongs to a dotted key, which does not go
    through a table that a header has made. -/
def modify? (dotted : Bool) (change : Origin → Entries → Option (Origin × Entries)) :
    List String → Origin → Entries → Option (Origin × Entries)
  | [], origin, entries => change origin entries
  | key :: path, origin, entries => do
    let inner ← match lookupEntry key entries with
      | none =>
        let (o, es) ← modify? dotted change path (if dotted then .dotted else .implied) []
        some (.table o es)
      | some (.table o es) =>
        if o = .inline ∨ (dotted ∧ o = .header) then none
        else
          let (o, es) ← modify? dotted change path o es
          some (.table o es)
      | some (.tables (last :: before)) =>
        let (_, es) ← modify? dotted change path .header last
        some (.tables (es :: before))
      | some _ => none
    some (origin, upsertEntry key inner entries)

/-- Adds an entry.  `dotted` says whether its key has more than one part: then the
    table must have been made by a dotted key. -/
def place? (dotted : Bool) (key : String) (v : Toml) (origin : Origin) (entries : Entries) :
    Option (Origin × Entries) :=
  if (lookupEntry key entries).isSome ∨ (dotted ∧ origin ≠ .dotted) then none
  else some (origin, entries ++ [(key, v)])

/-- **Adds a value** under a key that may be dotted. -/
def insert? (path : List String) (v : Toml) (origin : Origin) (entries : Entries) :
    Option (Origin × Entries) := do
  let key ← path.getLast?
  modify? true (place? (1 < path.length) key v) path.dropLast origin entries

/-- Adds a value to the table that the last header has named. -/
def insertUnder? (header path : List String) (v : Toml) (document : Entries) : Option Entries :=
  (modify? false (insert? path v) header .header document).map Prod.snd

/-- Makes the table that a header names. -/
def openTable? (path : List String) (document : Entries) : Option Entries := do
  let key ← path.getLast?
  let change (origin : Origin) (entries : Entries) : Option (Origin × Entries) :=
    match lookupEntry key entries with
    | none => some (origin, entries ++ [(key, .table .header [])])
    | some (.table .implied inner) => some (origin, upsertEntry key (.table .header inner) entries)
    | some _ => none
  (modify? false change path.dropLast .header document).map Prod.snd

/-- Adds an empty table to the list that a header in double brackets names. -/
def openItem? (path : List String) (document : Entries) : Option Entries := do
  let key ← path.getLast?
  let change (origin : Origin) (entries : Entries) : Option (Origin × Entries) :=
    match lookupEntry key entries with
    | none => some (origin, entries ++ [(key, .tables [[]])])
    | some (.tables items) => some (origin, upsertEntry key (.tables ([] :: items)) entries)
    | some _ => none
  (modify? false change path.dropLast .header document).map Prod.snd

end Toml

end BlockChart
