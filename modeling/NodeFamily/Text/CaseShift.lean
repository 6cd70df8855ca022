/-!
# Shifts between the cases of letters

Most case mappings move a whole run of letters by one distance: the capital Latin letters lie 32
below the small ones, and in many later blocks capital and small letters alternate. A `CaseShift` is
one such run.
-/

namespace NodeFamily.Text

/-- A run of code points that a case mapping moves by the same distance. -/
structure CaseShift where
  /-- The first code point of the run. -/
  lo : Nat
  /-- The last code point of the run. -/
  hi : Nat
  /-- One when every code point of the run moves, two when every second one does. -/
  step : Nat
  /-- The distance from a code point to its image. -/
  delta : Int

/-- Moves a character by the run that holds it. The runs are disjoint and in increasing order. -/
def CaseShift.apply : List CaseShift → Char → Char
  | [], c => c
  | s :: rest, c =>
    if c.toNat < s.lo then c
    else if c.toNat ≤ s.hi then
      if (c.toNat - s.lo) % s.step = 0 then Char.ofNat (c.toNat + s.delta).toNat else c
    else CaseShift.apply rest c

end NodeFamily.Text
