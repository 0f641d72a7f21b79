import BlockChart.Json.Basic

namespace BlockChart

/-!
# Entries

Objects, attributes, styles and variables are lists of entries with a key each.

* `mem_of_lookupEntry`, `lookupEntry_of_mem`, `lookupEntry_eq_none_of_notMem` — what a look-up
  finds;
* `map_fst_upsertEntry`, `lookupEntry_upsertEntry_self`, `lookupEntry_upsertEntry_of_ne` — the
  keys after one has been set, its value and the values of the others.
-/

/-! ### Looking up -/

@[simp] theorem lookupEntry_nil {α : Type} (key : String) :
    lookupEntry key ([] : List (String × α)) = none := by
  rw [lookupEntry]

/-- In two lists the first one comes first. -/
@[simp] theorem lookupEntry_append {α : Type} (key : String) (xs ys : List (String × α)) :
    lookupEntry key (xs ++ ys) = (lookupEntry key xs).or (lookupEntry key ys) := by
  induction xs with
  | nil => rfl
  | cons x xs ih =>
    obtain ⟨k, v⟩ := x
    by_cases hk : k = key
    · simp [lookupEntry, hk]
    · simp [lookupEntry, hk, ih]

/-- What is looked up is in the list. -/
theorem mem_of_lookupEntry {α : Type} {key : String} {v : α} {entries : List (String × α)}
    (h : lookupEntry key entries = some v) : (key, v) ∈ entries := by
  induction entries with
  | nil => simp at h
  | cons x xs ih =>
    obtain ⟨k, w⟩ := x
    unfold lookupEntry at h
    split at h
    case isTrue hk =>
      cases h
      rw [hk]
      exact List.mem_cons_self
    case isFalse => exact List.mem_cons_of_mem _ (ih h)

/-- An entry is found under its key, if no other has the key. -/
theorem lookupEntry_of_mem {α : Type} {key : String} {v : α} {entries : List (String × α)}
    (hdistinct : (entries.map Prod.fst).Nodup) (hmem : (key, v) ∈ entries) :
    lookupEntry key entries = some v := by
  induction entries with
  | nil => exact absurd hmem List.not_mem_nil
  | cons entry rest ih =>
    obtain ⟨k, w⟩ := entry
    obtain ⟨hk, hrest⟩ := List.nodup_cons.mp hdistinct
    rcases List.mem_cons.mp hmem with heq | hmem
    · cases heq
      rw [lookupEntry, if_pos rfl]
    · have hne : k ≠ key := by
        rintro rfl
        exact hk (List.mem_map.mpr ⟨_, hmem, rfl⟩)
      rw [lookupEntry, if_neg hne]
      exact ih hrest hmem

/-- A key that is not in the list is not found. -/
theorem lookupEntry_eq_none_of_notMem {α : Type} {key : String} {entries : List (String × α)}
    (h : key ∉ entries.map Prod.fst) : lookupEntry key entries = none := by
  induction entries with
  | nil => rfl
  | cons entry rest ih =>
    obtain ⟨k, v⟩ := entry
    obtain ⟨hk, hrest⟩ := not_or.mp (mt List.mem_cons.mpr h)
    rw [lookupEntry, if_neg (Ne.symm hk)]
    exact ih hrest

/-! ### Setting -/

/-- Setting an entry keeps the keys and adds its own, if it is new, after them. -/
theorem map_fst_upsertEntry {α : Type} (key : String) (value : α) (entries : List (String × α)) :
    (upsertEntry key value entries).map Prod.fst
      = if key ∈ entries.map Prod.fst then entries.map Prod.fst
        else entries.map Prod.fst ++ [key] := by
  induction entries with
  | nil => rfl
  | cons entry rest ih =>
    obtain ⟨k, v⟩ := entry
    -- a known key keeps its place, a new one is put last
    by_cases hk : k = key
    · simp [upsertEntry, hk]
    · rw [upsertEntry, if_neg hk, List.map_cons, ih, List.map_cons]
      by_cases hmem : key ∈ rest.map Prod.fst
      · rw [if_pos hmem, if_pos (List.mem_cons_of_mem _ hmem)]
      · have hnew := List.not_mem_cons_of_ne_of_not_mem (Ne.symm hk) hmem
        rw [if_neg hmem, if_neg hnew, List.cons_append]

/-- The key has the value that was set. -/
theorem lookupEntry_upsertEntry_self {α : Type} (key : String) (value : α)
    (entries : List (String × α)) :
    lookupEntry key (upsertEntry key value entries) = some value := by
  induction entries with
  | nil => simp [upsertEntry, lookupEntry]
  | cons entry rest ih =>
    obtain ⟨k, v⟩ := entry
    by_cases hk : k = key
    · simp [upsertEntry, lookupEntry, hk]
    · simp only [upsertEntry, if_neg hk, lookupEntry, ih]

/-- The other keys have the values that they had. -/
theorem lookupEntry_upsertEntry_of_ne {α : Type} {name key : String} (hne : name ≠ key)
    (value : α) (entries : List (String × α)) :
    lookupEntry name (upsertEntry key value entries) = lookupEntry name entries := by
  induction entries with
  | nil => simp [upsertEntry, lookupEntry, hne.symm]
  | cons entry rest ih =>
    obtain ⟨k, v⟩ := entry
    by_cases hk : k = key
    · subst hk
      simp [upsertEntry, lookupEntry, hne.symm]
    · simp only [upsertEntry, if_neg hk, lookupEntry, ih]

end BlockChart
