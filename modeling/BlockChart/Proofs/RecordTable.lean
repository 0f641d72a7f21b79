import BlockChart.Proofs.Entries
import BlockChart.Table
import Mathlib.Data.List.Basic
import Mathlib.Data.List.Nodup

namespace BlockChart

/-!
# Records make a complete table

Records may have different keys.  The table that is made of them has a column for every key
and a row for every record, and no cell is missing: where a record lacks a key, its row has
the unit.

* `FirstOccurrences` — names that stand for a list of keys, each once, in the order in which
  the keys come up for the first time; `FirstOccurrences.addKey` reads one more key, and
  `FirstOccurrences.recordColumns` all keys of all records;
* `Table.Completes` is what a table of records has to be;
* `Table.ofRecords_completes` — the table of a list of records is.
-/

/-! ### Names in the order of their first occurrence -/

/-- **The names of the keys in the order in which they first occur.** -/
structure FirstOccurrences (names keys : List String) : Prop where
  nodup : names.Nodup
  mem_iff : ∀ name, name ∈ names ↔ name ∈ keys
  order : names.Pairwise fun a b => keys.idxOf a < keys.idxOf b

namespace FirstOccurrences

variable {names keys : List String}

theorem nil : FirstOccurrences [] [] :=
  ⟨List.nodup_nil, fun _ => Iff.rfl, List.Pairwise.nil⟩

/-- What has been read stands where it did. -/
theorem order_append (h : FirstOccurrences names keys) (more : List String) :
    names.Pairwise fun a b => (keys ++ more).idxOf a < (keys ++ more).idxOf b := by
  refine h.order.imp_of_mem fun {a b} ha hb hab => ?_
  rwa [List.idxOf_append_of_mem ((h.mem_iff a).mp ha),
    List.idxOf_append_of_mem ((h.mem_iff b).mp hb)]

/-- A key that has been read before changes nothing. -/
theorem known (h : FirstOccurrences names keys) {key : String} (hkey : key ∈ names) :
    FirstOccurrences names (keys ++ [key]) where
  nodup := h.nodup
  mem_iff := fun name => by
    rw [List.mem_append, List.mem_singleton, ← h.mem_iff name]
    constructor
    · exact .inl
    · rintro (hname | rfl)
      · exact hname
      · exact hkey
  order := h.order_append [key]

/-- A new key comes last. -/
theorem fresh (h : FirstOccurrences names keys) {key : String} (hkey : key ∉ names) :
    FirstOccurrences (names ++ [key]) (keys ++ [key]) where
  nodup := by
    refine List.nodup_append.mpr ⟨h.nodup, List.nodup_singleton key, fun a ha b hb => ?_⟩
    obtain rfl := List.mem_singleton.mp hb
    exact fun heq => hkey (heq ▸ ha)
  mem_iff := fun name => by rw [List.mem_append, List.mem_append, h.mem_iff name]
  order := by
    have hunread : key ∉ keys := fun hmem => hkey ((h.mem_iff key).mpr hmem)
    refine List.pairwise_append.mpr
      ⟨h.order_append [key], List.pairwise_singleton .., fun a ha b hb => ?_⟩
    -- all that has been read stands before the new key
    obtain rfl := List.mem_singleton.mp hb
    have hread : a ∈ keys := (h.mem_iff a).mp ha
    calc (keys ++ [b]).idxOf a = keys.idxOf a := List.idxOf_append_of_mem hread
      _ < keys.length := List.idxOf_lt_length_of_mem hread
      _ ≤ (keys ++ [b]).idxOf b := by
        rw [List.idxOf_append_of_notMem hunread]
        exact Nat.le_add_right ..

/-- **Reading one more key.** -/
theorem addKey (h : FirstOccurrences names keys) (key : String) :
    FirstOccurrences (if names.contains key then names else names ++ [key]) (keys ++ [key]) := by
  by_cases hkey : key ∈ names
  · rw [if_pos (List.contains_iff_mem.mpr hkey)]
    exact h.known hkey
  · rw [if_neg fun hmem => hkey (List.contains_iff_mem.mp hmem)]
    exact h.fresh hkey

/-- Reading the keys of one more record. -/
theorem addKeys (h : FirstOccurrences names keys) (more : List String) :
    FirstOccurrences (Table.addKeys names more) (keys ++ more) := by
  induction more generalizing names keys with
  | nil => rwa [List.append_nil]
  | cons key rest ih =>
    have hrest := ih (h.addKey key)
    rwa [List.append_assoc] at hrest

/-- **Reading all records.** -/
theorem recordColumns (records : List Record) :
    FirstOccurrences (Table.recordColumns records)
      (records.flatMap fun record => record.map Prod.fst) := by
  -- for the loop: `names` stand for the keys of the records before
  have hloop : ∀ {names keys : List String}, FirstOccurrences names keys →
      FirstOccurrences
        (records.foldl (fun names record => Table.addKeys names (record.map Prod.fst)) names)
        (keys ++ records.flatMap fun record => record.map Prod.fst) := by
    induction records with
    | nil =>
      intro names keys h
      rwa [List.flatMap_nil, List.append_nil]
    | cons record rest ih =>
      intro names keys h
      rw [List.flatMap_cons, ← List.append_assoc]
      exact ih (h.addKeys (record.map Prod.fst))
  exact hloop .nil

end FirstOccurrences

/-! ### Cells -/

namespace Table

/-- **The table says what the records say**, and is complete. -/
structure Completes (t : Table) (records : List Record) : Prop where
  /-- The columns are the keys of all records, read one record after the other. -/
  columns : FirstOccurrences t.columns (records.flatMap fun record => record.map Prod.fst)
  /-- There is a row for each record, and in it a cell for each column. -/
  rows : t.rows.length = records.length
  width : ∀ row ∈ t.rows, row.length = t.columns.length
  /-- A cell holds the value of its record under the key of its column, and the unit if the
      record does not have the key. -/
  cell : ∀ (i j : Nat) (record : Record) (column : String), records[i]? = some record →
    t.columns[j]? = some column → ∃ row v, t.rows[i]? = some row ∧ row[j]? = some v ∧
      (∀ x, (column, x) ∈ record → v = Value.ofJson x) ∧
      (column ∉ record.map Prod.fst → v = Value.unit)

/-- The cell of a column is what the record has under its name. -/
theorem recordCell_of_mem {record : Record} (hdistinct : (record.map Prod.fst).Nodup)
    {column : String} {x : Json} (hmem : (column, x) ∈ record) :
    recordCell record column = .ofJson x := by
  rw [recordCell, lookupEntry_of_mem hdistinct hmem, Option.map_some, Option.getD_some]

/-- A column that the record does not have is left empty. -/
theorem recordCell_of_notMem {record : Record} {column : String}
    (h : column ∉ record.map Prod.fst) : recordCell record column = .unit := by
  rw [recordCell, lookupEntry_eq_none_of_notMem h, Option.map_none, Option.getD_none]

/-- **Records become a complete rectangle**, whichever keys each of them has. -/
theorem ofRecords_completes (records : List Record)
    (hdistinct : ∀ record ∈ records, (record.map Prod.fst).Nodup) :
    (ofRecords records).Completes records where
  columns := .recordColumns records
  rows := List.length_map _
  width := by
    intro row hrow
    obtain ⟨record, -, rfl⟩ := List.mem_map.mp hrow
    exact List.length_map _
  cell := by
    intro i j record column hrecord hcolumn
    refine ⟨(recordColumns records).map (recordCell record), recordCell record column, ?_, ?_,
      fun x hx => ?_, recordCell_of_notMem⟩
    · rw [ofRecords, List.getElem?_map, hrecord, Option.map_some]
    · rw [List.getElem?_map]
      exact congrArg (Option.map _) hcolumn
    · exact recordCell_of_mem (hdistinct record (List.mem_of_getElem? hrecord)) hx

/-- Two records with one key in common. -/
def scoreRecords : List Record :=
  [[("name", .string "a"), ("score", .int 3)], [("score", .int 5), ("extra", .bool true)]]

/-- The first record has no `extra` and the second no `name`. -/
theorem ofRecords_completes_scoreRecords :
    (∀ record ∈ scoreRecords, (record.map Prod.fst).Nodup) ∧
      (ofRecords scoreRecords).columns = ["name", "score", "extra"] ∧
      (ofRecords scoreRecords).Completes scoreRecords ∧
      ∃ row, (ofRecords scoreRecords).rows[1]? = some row ∧ row[0]? = some .unit := by
  have hdistinct : ∀ record ∈ scoreRecords, (record.map Prod.fst).Nodup := by decide
  have hcomplete := ofRecords_completes scoreRecords hdistinct
  obtain ⟨row, v, hrow, hv, -, hunit⟩ := hcomplete.cell 1 0 _ "name" rfl rfl
  refine ⟨hdistinct, rfl, hcomplete, row, hrow, ?_⟩
  rw [hv, hunit (by decide)]

end Table

end BlockChart
