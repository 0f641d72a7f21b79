namespace BlockChart

/-!
# Names of files

A path is a list of names between slashes.  Empty names and single dots count for
nothing, a dot at the front apart.

* `Path.extension` is what follows the last dot of the last name;
* `Path.inParent` is the path of another file next to a file.
-/

/-- A path: whether it starts at the root, and its names. -/
structure Path where
  absolute : Bool
  names : List String
  deriving DecidableEq, Repr

namespace Path

/-- The names between slashes that count. -/
def significant : List String → List String
  | [] => []
  | name :: rest => (if name = "." then [name] else [name].filter (· ≠ "")) ++
      rest.filter fun name => name ≠ "" ∧ name ≠ "."

/-- The path that a text spells. -/
def ofString (text : String) : Path :=
  ⟨text.toList.head? == some '/', significant (text.splitOn "/")⟩

/-- The spelling of a path. -/
def toString (p : Path) : String :=
  (if p.absolute then "/" else "") ++ "/".intercalate p.names

/-- The last name, unless it is a dot or two. -/
def fileName? (p : Path) : Option String :=
  p.names.getLast?.filter fun name => name ≠ "." ∧ name ≠ ".."

/-- What follows the last dot of a name.  A dot at its front does not count. -/
def extensionOf (name : String) : String :=
  let after := name.toList.reverse.takeWhile (· ≠ '.')
  if after.length + 1 < name.length then String.ofList after.reverse else ""

/-- **The extension**, in small letters; empty if there is none. -/
def extension (p : Path) : String :=
  let lower := (extensionOf (p.fileName?.getD "")).toList.map Char.toLower
  String.ofList lower

/-- The path of the file `name` in the directory that holds the file.  The root is in
    no directory. -/
def inParent (p : Path) (name : String) : Option Path :=
  if p.names.isEmpty then none else some { p with names := p.names.dropLast ++ [name] }

end Path

end BlockChart
