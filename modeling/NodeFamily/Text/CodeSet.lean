/-!
# Sets of code points

A Unicode property as a list of spans. The spans of every set in this library are disjoint and in
increasing order, so `CodeSet.contains` may stop at the first span that begins beyond the character.
-/

namespace NodeFamily.Text

/-- A set of code points. -/
structure CodeSet where
  /-- The first and last member of each run of members, in increasing order. -/
  spans : List (Nat × Nat)

/-- Whether `n` lies in one of the spans, which are in increasing order. -/
def inSpans : List (Nat × Nat) → Nat → Bool
  | [], _ => false
  | (lo, hi) :: rest, n => if n < lo then false else if n ≤ hi then true else inSpans rest n

/-- Whether a character belongs to the set. -/
def CodeSet.contains (s : CodeSet) (c : Char) : Bool := inSpans s.spans c.toNat

end NodeFamily.Text
