import BlockChart.Value.Coercion

namespace BlockChart

/-!
# Tables

The data that a program draws: names of columns, and rows of values.  Rows may be
shorter or longer than the list of columns.  `Table.ofRecords` makes a table out of
records, a column for each key in the order in which the keys first occur.
-/

/-- Named columns and rows of cells. -/
structure Table where
  columns : List String
  rows : List (List Value)
  deriving Repr, Inhabited

/-- A record: the entries of a JSON object. -/
abbrev Record := List (String × Json)

namespace Table

/-- The table without columns and rows. -/
def empty : Table := ⟨[], []⟩

/-- Adds the keys that are not among the names yet. -/
def addKeys (names : List String) (keys : List String) : List String :=
  keys.foldl (fun names key => if names.contains key then names else names ++ [key]) names

/-- The keys of the records, in the order of their first occurrence. -/
def recordColumns (records : List Record) : List String :=
  records.foldl (fun names record => addKeys names (record.map Prod.fst)) []

/-- The cell of a record under a column. -/
def recordCell (record : Record) (column : String) : Value :=
  ((lookupEntry column record).map Value.ofJson).getD .unit

/-- **The table of a list of records.** -/
def ofRecords (records : List Record) : Table :=
  let columns := recordColumns records
  ⟨columns, records.map fun record => columns.map (recordCell record)⟩

end Table

end BlockChart
