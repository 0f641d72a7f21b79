import BlockChart.Evaluation.Run
import BlockChart.Proofs.ActionEffect
import BlockChart.Proofs.ProgramGrammar
import BlockChart.Proofs.WholeNumbers

namespace BlockChart

/-!
# Aggregates agree with cells

The `stat` expression walks down a column by itself, while the `cell` expression looks up
one cell at a time.  Both resolve the column by index or by name, and both meet rows that
are too short.

* `Table.NamesRows` — values that stand for the rows, such as their numbers
  (`Table.namesRows_ofNat`);
* `Scopes.cell_eq_ok_iff`, `Scopes.cell_eq_error` — a cell of a row of the table, once the
  column is known;
* `Step.columnNumbers_eq_ok`, `Step.columnNumbers_eq_error` — the walk, by what it meets;
* `Step.stat_agrees_with_cell` — the two expressions agree.
-/

/-- Values that stand for the rows of a table, each for its own one. -/
def Table.NamesRows (t : Table) (rowAt : Nat → Value) : Prop :=
  ∀ r < t.rows.length, (rowAt r).index? = some r

/-- Row numbers up to the precision of a double are exact, so they name the rows. -/
theorem Table.namesRows_ofNat {t : Table} (h : t.rows.length ≤ 2 ^ 53) :
    t.NamesRows Value.ofNat := by
  intro r hr
  exact Value.index?_ofNat (Nat.lt_of_lt_of_le hr h)

/-! ### Cells -/

namespace Scopes

variable {s : Scopes} {f : FrameId} {t : Table} {row column v : Value} {cells : List Value}
  {i r : Nat} {e : Fault}

/-- A column is looked for in the table that the frame sees. -/
theorem columnIndex_eq (htable : s.table f = .ok t) :
    s.columnIndex f column = columnOf t column := by
  unfold columnIndex columnOf
  cases column.index? with
  | some i => rfl
  | none =>
    rw [htable]
    rfl

/-- A column that cannot be resolved is out of range, and the error says of how many columns. -/
theorem columnOf_eq_error (h : columnOf t column = .error e) :
    e = .indexOutOfRange "column" column.text t.columns.length := by
  unfold columnOf at h
  split at h
  · cases h
  · simp only at h
    split at h
    · cases h
    · exact (Except.error.inj h).symm

/-- A cell, once its row and its column are known. -/
theorem cell_eq (htable : s.table f = .ok t) (hrow : row.index? = some r)
    (hcells : t.rows[r]? = some cells) (hcolumn : columnOf t column = .ok i) :
    s.cell f row column = match cells[i]? with
      | some v => .ok v
      | none => .error (.indexOutOfRange "column" column.text cells.length) := by
  have hfound : (row.index?.bind fun i => t.rows[i]?) = some cells := by
    rw [hrow, Option.bind_some, hcells]
  unfold cell
  rw [htable]
  -- both the table and the row are known, so only the column is left to look for
  show cellOf t row column = _
  unfold cellOf
  rw [hfound]
  simp only [hcolumn]
  rfl

/-- A cell is found if its row is long enough. -/
theorem cell_eq_ok_iff (htable : s.table f = .ok t) (hrow : row.index? = some r)
    (hcells : t.rows[r]? = some cells) (hcolumn : columnOf t column = .ok i) :
    s.cell f row column = .ok v ↔ cells[i]? = some v := by
  rw [cell_eq htable hrow hcells hcolumn]
  cases cells[i]? <;> simp

/-- **A cell that is not found** in a row of the table: the row is too short. -/
theorem cell_eq_error (htable : s.table f = .ok t) (hrow : row.index? = some r)
    (hcells : t.rows[r]? = some cells) (hcolumn : columnOf t column = .ok i)
    (h : s.cell f row column = .error e) :
    cells[i]? = none ∧ e = .indexOutOfRange "column" column.text cells.length := by
  rw [cell_eq htable hrow hcells hcolumn] at h
  cases hcell : cells[i]? with
  | some v =>
    rw [hcell] at h
    cases h
  | none =>
    rw [hcell] at h
    exact ⟨rfl, (Except.error.inj h).symm⟩

end Scopes

/-! ### The walk down a column -/

namespace Step

/-- How the walk reports a row that is too short. -/
def shortRow (i r size : Nat) : Fault :=
  .indexOutOfRange "column" (toString i ++ " (row " ++ toString r ++ ")") size

/-- **All rows are long enough**: the walk gives the numbers in order. -/
theorem columnNumbers_eq_ok {i : Nat} {rows : List (List Value)} {cells : Nat → Value}
    (h : ∀ k row, rows[k]? = some row → row[i]? = some (cells k)) (r : Nat) :
    columnNumbers i r rows = .ok ((List.range rows.length).map fun k => (cells k).toNumber) := by
  induction rows generalizing r cells with
  | nil => rfl
  | cons row rest ih =>
    have hfirst : row[i]? = some (cells 0) := h 0 row rfl
    have hrest : ∀ k row', rest[k]? = some row' → row'[i]? = some (cells (k + 1)) := by
      intro k row' hk
      exact h (k + 1) row' hk
    rw [columnNumbers, hfirst]
    simp only [ih hrest]
    rw [List.length_cons, List.range_succ_eq_map, List.map_cons, List.map_map]
    rfl

/-- **A row is too short**: the walk ends at the first such row. -/
theorem columnNumbers_eq_error {i k : Nat} {rows : List (List Value)} {row : List Value}
    (hrow : rows[k]? = some row) (hshort : row[i]? = none)
    (hlong : ∀ j < k, ∀ row', rows[j]? = some row' → ∃ v, row'[i]? = some v) (r : Nat) :
    columnNumbers i r rows = .error (shortRow i (r + k) row.length) := by
  induction rows generalizing r k with
  | nil => cases hrow
  | cons first rest ih =>
    -- the short row is the first one, or comes later with the rows before it long enough
    cases k with
    | zero =>
      obtain rfl : first = row := Option.some.inj hrow
      rw [columnNumbers, hshort]
      rfl
    | succ k =>
      obtain ⟨v, hv⟩ := hlong 0 (Nat.succ_pos k) first rfl
      have hrest : columnNumbers i (r + 1) rest = .error (shortRow i (r + 1 + k) row.length) := by
        refine ih hrow (fun j hj row' hrow' => ?_) (r + 1)
        exact hlong (j + 1) (Nat.succ_lt_succ hj) row' hrow'
      have hnumber : r + 1 + k = r + (k + 1) := by omega
      rw [columnNumbers, hv]
      simp only [hrest, hnumber]
      rfl

end Step

/-! ### Aggregates -/

namespace Aggregate

/-- Statistics are told apart by their names. -/
@[simp]
theorem ofName?_name (op : Aggregate) : ofName? op.name = some op := by
  cases op <;> rfl

/-- Under its name a statistic is applied to the numbers. -/
theorem applyNamed?_name (op : Aggregate) {xs : List Float} (hxs : xs ≠ []) :
    applyNamed? op.name xs = some (op.apply xs) := by
  cases xs with
  | nil => exact absurd rfl hxs
  | cons x xs =>
    unfold applyNamed?
    rw [ofName?_name]
    rfl

end Aggregate

namespace Step

section

variable {t : Table} {v : Value} {op : Aggregate} {i : Nat}

/-- A column that is not there is the first thing to fail. -/
theorem aggregate_unresolved {e : Fault} (hcolumn : Scopes.columnOf t v = .error e) :
    aggregate t v op = .error e := by
  unfold aggregate
  rw [hcolumn]
  rfl

/-- A column without numbers has no statistic. -/
theorem aggregate_empty (hcolumn : Scopes.columnOf t v = .ok i)
    (hnumbers : columnNumbers i 0 t.rows = .ok []) :
    aggregate t v op = .error (.emptyAggregate op.name) := by
  unfold aggregate
  rw [hcolumn, ok_bind, hnumbers]
  rfl

/-- Otherwise the statistic is that of the numbers in the column. -/
theorem aggregate_numbers {xs : List Float} (hcolumn : Scopes.columnOf t v = .ok i)
    (hnumbers : columnNumbers i 0 t.rows = .ok xs) (hxs : xs ≠ []) :
    aggregate t v op = .ok (.num (op.apply xs)) := by
  unfold aggregate
  rw [hcolumn, ok_bind, hnumbers, ok_bind]
  cases xs with
  | nil => exact absurd rfl hxs
  | cons x xs => rfl

/-- A row that is too short is an error of the statistic too. -/
theorem aggregate_shortRow {e : Fault} (hcolumn : Scopes.columnOf t v = .ok i)
    (hnumbers : columnNumbers i 0 t.rows = .error e) : aggregate t v op = .error e := by
  unfold aggregate
  rw [hcolumn, ok_bind, hnumbers]
  rfl

end

variable {column : Slot} {operator : String} {f : FrameId} {s s' : Session} {v : Value} {t : Table}

/-- An unknown statistic gives no value and no error, once its input has been run. -/
theorem run_stat_unknown (hcolumn : (column.required "stat.column" f).run s = (.ok v, s'))
    (hunknown : operator ∉ Aggregate.all.map Aggregate.name) :
    (stat column operator f).run s = (.ok .unit, s') := by
  have hop : Aggregate.ofName? operator = none := find?_name_eq_none_iff.mpr hunknown
  unfold stat
  rw [Action.run_bind_of_ok _ hcolumn, hop]
  rfl

/-- An aggregate with a known name is that over the table that the frame sees. -/
theorem run_stat {op : Aggregate} (hcolumn : (column.required "stat.column" f).run s = (.ok v, s'))
    (htable : s'.scopes.table f = .ok t) :
    (stat column op.name f).run s = (aggregate t v op, s') := by
  unfold stat
  rw [Action.run_bind_of_ok _ hcolumn, Aggregate.ofName?_name]
  show ((do aggregate (← s'.scopes.table f) v op), s') = _
  rw [htable]
  rfl

/-- **The `stat` expression agrees with the `cell` expression.**  An unknown operator gives the
    unit.  A known one fails if the column does not resolve, or else at the first row whose cell
    fails, or else for want of rows; otherwise it aggregates the numbers of the cells in the
    order of the rows.  The rows may be given by any values that stand for them, and their
    numbers do unless there are more than `2 ^ 53`. -/
theorem stat_agrees_with_cell (column : Slot) (operator : String) (f : FrameId) (s s' : Session)
    (v : Value) (hcolumn : (column.required "stat.column" f).run s = (.ok v, s')) :
    (operator ∉ Aggregate.all.map Aggregate.name →
      (stat column operator f).run s = (.ok .unit, s')) ∧
    ∀ t : Table, s'.scopes.table f = .ok t →
      (t.rows.length ≤ 2 ^ 53 → t.NamesRows Value.ofNat) ∧
      ∀ rowAt : Nat → Value, t.NamesRows rowAt →
      operator ∈ Aggregate.all.map Aggregate.name →
        (∀ e, s'.scopes.columnIndex f v = .error e →
          e = .indexOutOfRange "column" v.text t.columns.length ∧
            (stat column operator f).run s = (.error e, s')) ∧
        ∀ i, s'.scopes.columnIndex f v = .ok i →
          (t.rows = [] →
            (stat column operator f).run s = (.error (.emptyAggregate operator), s')) ∧
          (t.rows ≠ [] → ∀ cells : Nat → Value,
            (∀ r < t.rows.length, s'.scopes.cell f (rowAt r) v = .ok (cells r)) →
            ∃ x, Aggregate.applyNamed? operator
                ((List.range t.rows.length).map fun r => (cells r).toNumber) = some x ∧
              (stat column operator f).run s = (.ok (.num x), s')) ∧
          ∀ r < t.rows.length, ∀ e, s'.scopes.cell f (rowAt r) v = .error e →
            (∀ q < r, ∃ w, s'.scopes.cell f (rowAt q) v = .ok w) →
            ∃ size, e = .indexOutOfRange "column" v.text size ∧
              (stat column operator f).run s = (.error (shortRow i r size), s') := by
  refine ⟨run_stat_unknown hcolumn, fun t htable => ⟨Table.namesRows_ofNat, ?_⟩⟩
  intro rowAt hnames hknown
  obtain ⟨op, -, rfl⟩ := List.mem_map.mp hknown
  rw [run_stat hcolumn htable, Scopes.columnIndex_eq htable]
  have hnamed : ∀ k row, t.rows[k]? = some row → (rowAt k).index? = some k := by
    intro k row hk
    exact hnames k (List.getElem?_eq_some_iff.mp hk).1
  refine ⟨fun e he => ⟨Scopes.columnOf_eq_error he, by rw [aggregate_unresolved he]⟩, ?_⟩
  intro i hi
  refine ⟨fun hempty => ?_, fun hrows cells hcells => ?_, fun r hr e he hbefore => ?_⟩
  -- no rows, no numbers
  · have hnumbers : columnNumbers i 0 t.rows = .ok [] := by
      rw [hempty]
      rfl
    rw [aggregate_empty hi hnumbers]
  -- all cells are there: the walk down the column meets them in order
  · have hcell : ∀ k row, t.rows[k]? = some row → row[i]? = some (cells k) := by
      intro k row hk
      have hlt := (List.getElem?_eq_some_iff.mp hk).1
      exact (Scopes.cell_eq_ok_iff htable (hnamed k row hk) hk hi).mp (hcells k hlt)
    have hxs : ((List.range t.rows.length).map fun r => (cells r).toNumber) ≠ [] := by
      simpa using hrows
    refine ⟨_, Aggregate.applyNamed?_name op hxs, ?_⟩
    rw [aggregate_numbers hi (columnNumbers_eq_ok hcell 0) hxs]
  -- one cell is missing: the walk stops at the same row, after rows that are long enough
  · obtain ⟨row, hrow⟩ : ∃ row, t.rows[r]? = some row := ⟨_, List.getElem?_eq_getElem hr⟩
    obtain ⟨hshort, rfl⟩ := Scopes.cell_eq_error htable (hnamed r row hrow) hrow hi he
    have hlong : ∀ j < r, ∀ row', t.rows[j]? = some row' → ∃ w, row'[i]? = some w := by
      intro j hj row' hrow'
      obtain ⟨w, hw⟩ := hbefore j hj
      exact ⟨w, (Scopes.cell_eq_ok_iff htable (hnamed j row' hrow') hrow' hi).mp hw⟩
    refine ⟨row.length, rfl, ?_⟩
    rw [aggregate_shortRow hi (columnNumbers_eq_error hrow hshort hlong 0), Nat.zero_add]

/-- A table of two columns whose second row has only one cell. -/
def raggedTable : Table :=
  ⟨["Year", "Sales"], [[.str "2019", .str " 1 "], [.str "2020"]]⟩

/-- A session over that table with a frame below the root. -/
def raggedSession : Session :=
  let s := Session.start raggedTable ⟨#[.plain "svg" none]⟩
  { s with scopes := (s.scopes.openFrame Scopes.root).2 }

/-- The name is found in another case and from a frame below the root; the first row has the
    cell, and the second one has not. -/
theorem stat_agrees_with_cell_ragged :
    (((Program.string false "SALES").meaning? 4).required "stat.column" 1).run raggedSession
        = (.ok (.str "SALES"), raggedSession) ∧
      raggedSession.scopes.table 1 = .ok raggedTable ∧
      raggedTable.NamesRows Value.ofNat ∧
      raggedSession.scopes.columnIndex 1 (.str "SALES") = .ok 1 ∧
      (stat ((Program.string false "SALES").meaning? 4) "sum" 1).run raggedSession
        = (.error (.indexOutOfRange "column" "1 (row 1)" 1), raggedSession) := by
  have hcolumn : (((Program.string false "SALES").meaning? 4).required "stat.column" 1).run
      raggedSession = (.ok (.str "SALES"), raggedSession) := rfl
  have htable : raggedSession.scopes.table 1 = .ok raggedTable := rfl
  have hindex : raggedSession.scopes.columnIndex 1 (.str "SALES") = .ok 1 := rfl
  have hresolves : Scopes.columnOf raggedTable (.str "SALES") = .ok 1 := by
    rw [← Scopes.columnIndex_eq htable, hindex]
  obtain ⟨-, hall⟩ := stat_agrees_with_cell _ "sum" _ _ _ _ hcolumn
  obtain ⟨hnumbers, hrows⟩ := hall raggedTable htable
  have hnames := hnumbers (by decide)
  -- the first row is long enough, the second is not
  have hfirst : raggedSession.scopes.cell 1 (Value.ofNat 0) (.str "SALES")
      = .ok (.str " 1 ") := by
    rw [Scopes.cell_eq htable (hnames 0 (by decide)) rfl hresolves]
    rfl
  have hsecond : raggedSession.scopes.cell 1 (Value.ofNat 1) (.str "SALES")
      = .error (.indexOutOfRange "column" "SALES" 1) := by
    rw [Scopes.cell_eq htable (hnames 1 (by decide)) rfl hresolves]
    rfl
  obtain ⟨-, hresolved⟩ := hrows Value.ofNat hnames (by decide)
  obtain ⟨-, -, hshort⟩ := hresolved 1 hindex
  have hbefore : ∀ q < 1, ∃ w,
      raggedSession.scopes.cell 1 (Value.ofNat q) (.str "SALES") = .ok w := by
    intro q hq
    obtain rfl : q = 0 := by omega
    exact ⟨_, hfirst⟩
  obtain ⟨size, hsize, hrun⟩ := hshort 1 (by decide) _ hsecond hbefore
  cases hsize
  exact ⟨hcolumn, htable, hnames, hindex, hrun⟩

end Step

end BlockChart
