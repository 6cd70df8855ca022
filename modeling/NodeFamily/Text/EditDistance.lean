/-!
# Distance between texts

`distance` is the least number of items to insert, delete or replace that turns one list into the
other. It is computed row by row: a row holds the distances of the items read so far to all
beginnings of the second list.
-/

namespace NodeFamily.Text

variable {α : Type} [DecidableEq α]

/-- A row from its second place on, after one more item `a`. `diagonal` and `left` are the
neighbours of its next place, and `above` is what is left of the row before. -/
def distanceRow (a : α) (diagonal left : Nat) : List α → (above : List Nat) → List Nat
  | b :: bs, up :: above =>
    let here := if a = b then diagonal else min (min up left) diagonal + 1
    here :: distanceRow a up here bs above
  | _, _ => []

/-- The row after one more item. -/
def nextDistanceRow (bs : List α) (row : List Nat) (a : α) : List Nat :=
  match row with
  | [] => []
  | first :: above => (first + 1) :: distanceRow a first (first + 1) bs above

/-- The least number of changes from one list to another. -/
def distance (as bs : List α) : Nat :=
  (as.foldl (nextDistanceRow bs) (List.range (bs.length + 1))).getLastD 0

end NodeFamily.Text
