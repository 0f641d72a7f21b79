namespace BlockChart

/-!
# Edit distance

The least number of insertions, deletions and substitutions of single characters
that turn one text into another, ASCII letters being compared without case.  It is
computed row by row: row `i` holds the distances from the first `i` characters of
one text to every initial part of the other.
-/

/-- The cells of a row after its first one.  `left` is the cell before, and the
    row above starts at the cell diagonally above. -/
def distanceCells (a : Char) : Nat → List Char → List Nat → List Nat
  | left, b :: bs, diagonal :: above :: rest =>
    let change := if a = b then 0 else 1
    let cell := min (min (above + 1) (left + 1)) (diagonal + change)
    cell :: distanceCells a cell bs (above :: rest)
  | _, _, _ => []

/-- The row below `row`, for one more character `a` of the first text. -/
def distanceRow (bs : List Char) (row : List Nat) (a : Char) : List Nat :=
  let first := row.headD 0 + 1
  first :: distanceCells a first bs row

/-- Edit distance of two lists of characters. -/
def distanceChars (as bs : List Char) : Nat :=
  (as.foldl (distanceRow bs) (List.range (bs.length + 1))).getLastD 0

/-- **Edit distance** of two texts, ASCII letters compared without case. -/
def editDistance (a b : String) : Nat :=
  distanceChars (a.toList.map Char.toLower) (b.toList.map Char.toLower)

end BlockChart
