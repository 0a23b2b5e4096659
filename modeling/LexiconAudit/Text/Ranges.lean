/-!
This module contains the look-up of a code point in a table of ranges, the form in which the character
classes and case maps of this library are written down. A table is sorted and its ranges do not overlap.
-/

namespace LexiconAudit.Text

/--
The last row of `table` between `lo` and `hi` whose first code point is not above `n`, if there is one.
-/
def floorRow? {ρ : Type} (first : ρ → Nat) (table : Array ρ) (n lo hi : Nat) : Option ρ :=
  if lo < hi then
    let mid := (lo + hi) / 2
    match table[mid]? with
    | none => none
    | some row =>
      if first row ≤ n then
        (floorRow? first table n (mid + 1) hi).or (some row)
      else
        floorRow? first table n lo mid
  else
    none
termination_by hi - lo

def inRanges (table : Array (Nat × Nat)) (n : Nat) : Bool :=
  match floorRow? Prod.fst table n 0 table.size with
  | some (_, last) => n ≤ last
  | none => false

end LexiconAudit.Text
