import BlockChart.Opcode
import Mathlib.Data.List.MinMax
import Mathlib.Order.Bounds.Basic

namespace BlockChart

/-!
# Edit distance and suggestions

`editDistance` fills a table row by row and keeps one row.  Here it is compared with two
descriptions that know nothing of rows:

* `levenshtein` — the recursion on the first characters of two lists;
* `Edits` — sequences of single insertions, deletions and substitutions anywhere.

The recursion gives the least length of such a sequence (`levenshtein_isLeast`): no edit
changes it by more than one, and some sequence reaches it.  Rows go by initial parts and
the recursion by final ones, which is why a row is stated for the reversed lists
(`prefixRow`); edits can be made on reversed lists too, so reversing changes nothing
(`levenshtein_reverse`).

* `distanceChars_eq` — the table ends in the recursion;
* `Opcode.nearest?_eq_argmin` — the search for a suggestion takes the first minimum;
* `editDistance_suggestions` — distances and suggestions together.
-/

/-! ### The recursion -/

/-- **The edit distance by recursion.**  Either the first character of one list is left
    out, or both are, which costs nothing if they are the same. -/
def levenshtein : List Char → List Char → Nat
  | [], bs => bs.length
  | a :: as, [] => (a :: as).length
  | a :: as, b :: bs =>
    min (min (levenshtein as (b :: bs) + 1) (levenshtein (a :: as) bs + 1))
      (levenshtein as bs + if a = b then 0 else 1)
termination_by as bs => as.length + bs.length

@[simp]
theorem levenshtein_nil_left (bs : List Char) : levenshtein [] bs = bs.length := by
  rw [levenshtein]

@[simp]
theorem levenshtein_nil_right (as : List Char) : levenshtein as [] = as.length := by
  cases as <;> simp [levenshtein]

theorem levenshtein_cons_cons (a : Char) (as : List Char) (b : Char) (bs : List Char) :
    levenshtein (a :: as) (b :: bs) =
      min (min (levenshtein as (b :: bs) + 1) (levenshtein (a :: as) bs + 1))
        (levenshtein as bs + if a = b then 0 else 1) := by
  rw [levenshtein]

/-- Nothing is to be done where nothing differs. -/
theorem levenshtein_self (as : List Char) : levenshtein as as = 0 := by
  induction as with
  | nil => simp
  | cons a as ih =>
    rw [levenshtein_cons_cons, if_pos rfl, ih]
    omega

/-! ### One character more or less

Each bound compares the distances from two lists, one character apart, to a third one.
-/

/-- Inserting costs one at most. -/
theorem levenshtein_cons_right_le (as : List Char) (b : Char) (bs : List Char) :
    levenshtein as (b :: bs) ≤ levenshtein as bs + 1 := by
  cases as with
  | nil => simp
  | cons a as =>
    rw [levenshtein_cons_cons]
    omega

/-- Deleting costs one at most. -/
theorem levenshtein_cons_left_le (a : Char) (as bs : List Char) :
    levenshtein (a :: as) bs ≤ levenshtein as bs + 1 := by
  cases bs with
  | nil => simp
  | cons b bs =>
    rw [levenshtein_cons_cons]
    omega

/-- A character that is put in front can be taken off again. -/
theorem levenshtein_le_cons_left (a : Char) (as bs : List Char) :
    levenshtein as bs ≤ levenshtein (a :: as) bs + 1 := by
  induction bs with
  | nil =>
    rw [levenshtein_nil_right, levenshtein_nil_right, List.length_cons]
    omega
  | cons b bs ih =>
    -- whichever way `a` is left out, `b` can be inserted instead
    have hinsert := levenshtein_cons_right_le as b bs
    rw [levenshtein_cons_cons]
    omega

/-- Replacing costs one at most. -/
theorem levenshtein_replace_le (a b : Char) (as bs : List Char) :
    levenshtein (a :: as) bs ≤ levenshtein (b :: as) bs + 1 := by
  induction bs with
  | nil => simp
  | cons c bs ih =>
    have hcost : (if a = c then 0 else 1) ≤ 1 := by
      split <;> omega
    rw [levenshtein_cons_cons, levenshtein_cons_cons]
    omega

/-- A bound that holds for two lists against every third one holds behind a common first
    character. -/
theorem levenshtein_cons_congr {as bs : List Char}
    (h : ∀ cs, levenshtein as cs ≤ levenshtein bs cs + 1) (x : Char) (cs : List Char) :
    levenshtein (x :: as) cs ≤ levenshtein (x :: bs) cs + 1 := by
  induction cs with
  | nil =>
    have hnil := h []
    simp only [levenshtein_nil_right, List.length_cons] at hnil ⊢
    omega
  | cons c cs ih =>
    have hskip := h (c :: cs)
    have hboth := h cs
    rw [levenshtein_cons_cons, levenshtein_cons_cons]
    omega

/-! ### Sequences of edits -/

/-- **One edit** of a list of characters, at any place. -/
inductive Edit : List Char → List Char → Prop
  | insert (front rest : List Char) (c : Char) : Edit (front ++ rest) (front ++ c :: rest)
  | delete (front rest : List Char) (c : Char) : Edit (front ++ c :: rest) (front ++ rest)
  | substitute (front rest : List Char) (c d : Char) :
      Edit (front ++ c :: rest) (front ++ d :: rest)

/-- **A number of edits** one after the other. -/
inductive Edits : Nat → List Char → List Char → Prop
  | none (as : List Char) : Edits 0 as as
  | edit {n : Nat} {as bs cs : List Char} (first : Edit as bs) (rest : Edits n bs cs) :
      Edits (n + 1) as cs

/-- An edit happens behind any first character. -/
theorem Edit.cons {as bs : List Char} (h : Edit as bs) (x : Char) : Edit (x :: as) (x :: bs) := by
  cases h with
  | insert front rest c => exact .insert (x :: front) rest c
  | delete front rest c => exact .delete (x :: front) rest c
  | substitute front rest c d => exact .substitute (x :: front) rest c d

/-- An edit read backwards is an edit. -/
theorem Edit.reverse {as bs : List Char} (h : Edit as bs) : Edit as.reverse bs.reverse := by
  cases h with
  | insert front rest c => simpa using Edit.insert rest.reverse front.reverse c
  | delete front rest c => simpa using Edit.delete rest.reverse front.reverse c
  | substitute front rest c d => simpa using Edit.substitute rest.reverse front.reverse c d

/-- **An edit changes no distance by more than one.** -/
theorem Edit.levenshtein_le {as bs : List Char} (h : Edit as bs) (cs : List Char) :
    levenshtein as cs ≤ levenshtein bs cs + 1 := by
  -- along what stands before the edit, down to an edit of the first character
  cases h with
  | insert front rest c =>
    induction front generalizing cs with
    | nil => exact levenshtein_le_cons_left c rest cs
    | cons x front ih => exact levenshtein_cons_congr ih x cs
  | delete front rest c =>
    induction front generalizing cs with
    | nil => exact levenshtein_cons_left_le c rest cs
    | cons x front ih => exact levenshtein_cons_congr ih x cs
  | substitute front rest c d =>
    induction front generalizing cs with
    | nil => exact levenshtein_replace_le c d rest cs
    | cons x front ih => exact levenshtein_cons_congr ih x cs

/-- Edits happen behind any first character. -/
theorem Edits.cons {n : Nat} {as bs : List Char} (h : Edits n as bs) (x : Char) :
    Edits n (x :: as) (x :: bs) := by
  induction h with
  | none as => exact .none (x :: as)
  | edit first _ ih => exact .edit (first.cons x) ih

/-- Edits read backwards are as many edits. -/
theorem Edits.reverse {n : Nat} {as bs : List Char} (h : Edits n as bs) :
    Edits n as.reverse bs.reverse := by
  induction h with
  | none as => exact .none as.reverse
  | edit first _ ih => exact .edit first.reverse ih

/-- And forwards again. -/
theorem edits_reverse_iff {n : Nat} {as bs : List Char} :
    Edits n as.reverse bs.reverse ↔ Edits n as bs := by
  constructor
  · intro h
    simpa using h.reverse
  · exact Edits.reverse

/-- No sequence of edits is shorter than the recursion says. -/
theorem Edits.levenshtein_le {n : Nat} {as bs : List Char} (h : Edits n as bs) :
    levenshtein as bs ≤ n := by
  induction h with
  | none as => exact (levenshtein_self as).le
  | @edit n as bs cs first _ ih =>
    have hfirst := first.levenshtein_le cs
    omega

/-- Some sequence of edits is as short as the recursion says. -/
theorem edits_levenshtein (as bs : List Char) : Edits (levenshtein as bs) as bs := by
  fun_induction levenshtein as bs with
  -- from the empty text: insert all of the other one
  | case1 bs =>
    induction bs with
    | nil => exact .none []
    | cons b bs ih => exact .edit (.insert [] [] b) (ih.cons b)
  -- to the empty text: delete all that is there
  | case2 a as =>
    generalize a :: as = cs
    induction cs with
    | nil => exact .none []
    | cons c cs ih => exact .edit (.delete [] cs c) ih
  -- the distance is that of the cheapest of three first steps, and each is within reach
  | case3 a as b bs ihdelete ihinsert ihboth =>
    have hdelete : Edits (levenshtein as (b :: bs) + 1) (a :: as) (b :: bs) :=
      .edit (.delete [] as a) ihdelete
    have hinsert : Edits (levenshtein (a :: as) bs + 1) (a :: as) (b :: bs) :=
      .edit (.insert [] (a :: as) b) (ihinsert.cons b)
    have hboth : Edits (levenshtein as bs + if a = b then 0 else 1) (a :: as) (b :: bs) := by
      split
      case isTrue hab =>
        subst hab
        exact ihboth.cons a
      case isFalse => exact .edit (.substitute [] as a b) (ihboth.cons b)
    rcases min_choice (min (levenshtein as (b :: bs) + 1) (levenshtein (a :: as) bs + 1))
      (levenshtein as bs + if a = b then 0 else 1) with hmin | hmin
    · rw [hmin]
      rcases min_choice (levenshtein as (b :: bs) + 1) (levenshtein (a :: as) bs + 1) with
        hskip | hskip
      · rw [hskip]
        exact hdelete
      · rw [hskip]
        exact hinsert
    · rw [hmin]
      exact hboth

/-- **The recursion gives the least number of edits.** -/
theorem levenshtein_isLeast (as bs : List Char) :
    IsLeast {n | Edits n as bs} (levenshtein as bs) :=
  ⟨edits_levenshtein as bs, fun _ h => h.levenshtein_le⟩

/-- So the distance can be computed from either end. -/
theorem levenshtein_reverse (as bs : List Char) :
    levenshtein as.reverse bs.reverse = levenshtein as bs := by
  have hreversed := levenshtein_isLeast as.reverse bs.reverse
  simp only [edits_reverse_iff] at hreversed
  exact hreversed.unique (levenshtein_isLeast as bs)

/-! ### Rows of the table -/

/-- The row of a list `as`: its distances to `done` and to each list that the characters
    after it make of `done`, one by one.  All lists have their last character in front. -/
def prefixRow (as done : List Char) : List Char → List Nat
  | [] => [levenshtein as done]
  | b :: bs => levenshtein as done :: prefixRow as (b :: done) bs

/-- A row begins with the distance from what has been read. -/
theorem prefixRow_eq_cons (as done bs : List Char) :
    ∃ rest, prefixRow as done bs = levenshtein as done :: rest := by
  cases bs with
  | nil => exact ⟨[], rfl⟩
  | cons b bs => exact ⟨_, rfl⟩

/-- The row of no characters counts. -/
theorem prefixRow_nil (done bs : List Char) :
    prefixRow [] done bs = List.range' done.length (bs.length + 1) := by
  induction bs generalizing done with
  | nil => simp [prefixRow]
  | cons b bs ih =>
    rw [prefixRow, ih, levenshtein_nil_left, List.length_cons, List.length_cons]
    exact List.range'_succ.symm

/-- **The cells of a row** follow from the row above: the cells to the left, above and
    diagonally above are the three distances that the recursion asks for. -/
theorem distanceCells_prefixRow (a : Char) (as done bs : List Char) :
    levenshtein (a :: as) done ::
        distanceCells a (levenshtein (a :: as) done) bs (prefixRow as done bs) =
      prefixRow (a :: as) done bs := by
  induction bs generalizing done with
  | nil => rfl
  | cons b bs ih =>
    -- the row above goes on past the diagonal, so there is a cell above
    obtain ⟨rest, hrest⟩ := prefixRow_eq_cons as (b :: done) bs
    have hcells := ih (b :: done)
    rw [hrest, levenshtein_cons_cons] at hcells
    rw [prefixRow, prefixRow, hrest]
    simp only [distanceCells]
    rw [hcells]

/-- A row leads to the next one. -/
theorem distanceRow_prefixRow (as bs : List Char) (a : Char) :
    distanceRow bs (prefixRow as [] bs) a = prefixRow (a :: as) [] bs := by
  obtain ⟨rest, hrest⟩ := prefixRow_eq_cons as [] bs
  have hfirst : (prefixRow as [] bs).headD 0 + 1 = levenshtein (a :: as) [] := by
    rw [hrest]
    simp
  unfold distanceRow
  simp only [hfirst]
  exact distanceCells_prefixRow a as [] bs

/-- **All rows**: after each character, the row is that of the characters so far. -/
theorem foldl_distanceRow (as done bs : List Char) :
    as.foldl (distanceRow bs) (prefixRow done [] bs) = prefixRow (as.reverse ++ done) [] bs := by
  induction as generalizing done with
  | nil => rfl
  | cons a as ih =>
    rw [List.foldl_cons, distanceRow_prefixRow, ih]
    simp

/-- And ends with the distance from the whole text. -/
theorem getLastD_prefixRow (as done bs : List Char) (d : Nat) :
    (prefixRow as done bs).getLastD d = levenshtein as (bs.reverse ++ done) := by
  induction bs generalizing done d with
  | nil => rfl
  | cons b bs ih =>
    rw [prefixRow, List.getLastD_cons, ih]
    simp

/-- **The table ends in the recursion.** -/
theorem distanceChars_eq (as bs : List Char) : distanceChars as bs = levenshtein as bs := by
  have hstart : List.range (bs.length + 1) = prefixRow [] [] bs := by
    rw [prefixRow_nil, List.range_eq_range']
    rfl
  calc
    distanceChars as bs
      = (as.foldl (distanceRow bs) (prefixRow [] [] bs)).getLastD 0 := by
        rw [distanceChars, hstart]
    -- the fold puts each character in front of those before it, so the texts end up reversed
    _ = (prefixRow as.reverse [] bs).getLastD 0 := by
        rw [foldl_distanceRow, List.append_nil]
    _ = levenshtein as.reverse bs.reverse := by
        rw [getLastD_prefixRow, List.append_nil]
    _ = levenshtein as bs := levenshtein_reverse as bs

/-! ### Suggestions -/

/-- The characters of a text, ASCII letters in lower case. -/
def foldedChars (s : String) : List Char :=
  s.toList.map Char.toLower

/-- The distance of two names is that of their characters, capital or not. -/
theorem editDistance_eq (a b : String) :
    editDistance a b = levenshtein (foldedChars a) (foldedChars b) :=
  distanceChars_eq _ _

namespace Opcode

/-- How far a name is from that of an operation. -/
def distanceFrom (name : String) (op : Opcode) : Nat :=
  levenshtein (foldedChars name) (foldedChars op.name)

/-- The search goes through the candidates from the end and keeps the first minimum. -/
theorem nearest?_eq_argmin (name : String) (candidates : List Opcode) :
    nearest? name candidates =
      (candidates.argmin (distanceFrom name)).map fun op => (op, distanceFrom name op) := by
  induction candidates with
  | nil => rfl
  | cons op rest ih =>
    have hdistance : editDistance name op.name = distanceFrom name op := editDistance_eq _ _
    rw [nearest?, ih, List.argmin_cons, hdistance]
    cases rest.argmin (distanceFrom name) with
    | none => rfl
    | some other =>
      simp only [Option.map_some]
      split <;> rfl

/-- Every operation is in the list. -/
theorem mem_all (op : Opcode) : op ∈ all := by
  cases op <;> decide

/-- The operation at the first minimum of the distances. -/
theorem exists_argmin (name : String) : ∃ op, all.argmin (distanceFrom name) = some op := by
  have hsome : all.argmin (distanceFrom name) ≠ none := by
    rw [Ne, List.argmin_eq_none]
    decide
  exact Option.ne_none_iff_exists'.mp hsome

/-- An operation is suggested if it is the nearest, and near enough. -/
theorem suggest?_of_argmin {name : String} {op : Opcode}
    (h : all.argmin (distanceFrom name) = some op) :
    suggest? name = if distanceFrom name op ≤ 2 then some op else none := by
  unfold suggest?
  rw [nearest?_eq_argmin, h, Option.map_some]

/-- **What is suggested**: an operation at most two edits away, none nearer, and none as
    near before it in the catalog. -/
theorem suggest?_eq_some_iff {name : String} {op : Opcode} :
    suggest? name = some op ↔
      distanceFrom name op ≤ 2 ∧
        (∀ other, distanceFrom name op ≤ distanceFrom name other) ∧
        ∀ other, distanceFrom name other = distanceFrom name op →
          all.idxOf op ≤ all.idxOf other := by
  obtain ⟨nearest, hnearest⟩ := exists_argmin name
  rw [suggest?_of_argmin hnearest]
  constructor
  · intro h
    split at h
    case isTrue hle =>
      obtain rfl := Option.some.inj h
      obtain ⟨-, hleast, hfirst⟩ := List.argmin_eq_some_iff.mp hnearest
      exact ⟨hle, fun other => hleast other (mem_all other),
        fun other heq => hfirst other (mem_all other) heq.le⟩
    case isFalse => cases h
  · rintro ⟨hle, hleast, hfirst⟩
    have hop : all.argmin (distanceFrom name) = some op := by
      refine List.argmin_eq_some_iff.mpr ⟨mem_all op, fun other _ => hleast other, ?_⟩
      intro other _ hother
      exact hfirst other (hother.antisymm (hleast other))
    rw [hnearest] at hop
    obtain rfl := Option.some.inj hop
    rw [if_pos hle]

/-- Nothing is suggested where no operation is near. -/
theorem suggest?_eq_none_iff {name : String} :
    suggest? name = none ↔ ∀ op, 2 < distanceFrom name op := by
  obtain ⟨nearest, hnearest⟩ := exists_argmin name
  obtain ⟨-, hleast, -⟩ := List.argmin_eq_some_iff.mp hnearest
  rw [suggest?_of_argmin hnearest]
  constructor
  · intro h op
    have hfar : ¬ distanceFrom name nearest ≤ 2 := by
      intro hle
      rw [if_pos hle] at h
      cases h
    have hop := hleast op (mem_all op)
    omega
  · intro h
    have hfar := h nearest
    rw [if_neg (by omega)]

end Opcode

/-- **Distances and suggestions.**  The distance of two texts is what the recursion gives for
    their characters, ASCII letters in lower case, and the least number of edits from one to
    the other.  The suggestion for a name is the first operation of the catalog among those at
    the least distance if that is at most two, and otherwise there is none. -/
theorem editDistance_suggestions :
    (∀ a b : String,
      editDistance a b = levenshtein (foldedChars a) (foldedChars b) ∧
        IsLeast {n | Edits n (foldedChars a) (foldedChars b)} (editDistance a b)) ∧
      ∀ name : String,
        (∀ op : Opcode, Opcode.suggest? name = some op ↔
          Opcode.distanceFrom name op ≤ 2 ∧
            (∀ other, Opcode.distanceFrom name op ≤ Opcode.distanceFrom name other) ∧
            ∀ other, Opcode.distanceFrom name other = Opcode.distanceFrom name op →
              Opcode.all.idxOf op ≤ Opcode.all.idxOf other) ∧
        (Opcode.suggest? name = none ↔ ∀ op, 2 < Opcode.distanceFrom name op) := by
  refine ⟨fun a b => ⟨editDistance_eq a b, ?_⟩, fun name => ?_⟩
  · rw [editDistance_eq]
    exact levenshtein_isLeast _ _
  · exact ⟨fun _ => Opcode.suggest?_eq_some_iff, Opcode.suggest?_eq_none_iff⟩

/-- `rect` and `text` are both one edit away; `rect` comes first in the catalog. -/
example : Opcode.suggest? "Rext" = some .rect := by
  decide +kernel

end BlockChart
