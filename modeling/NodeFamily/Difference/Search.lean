import NodeFamily.Difference.Script

/-!
# Finding an edit script

`compare` finds a short edit script between two lists by division: what they have in common at both
ends is kept, a list inside the other needs no search, a long common stretch divides both lists
(`halfMatch?`), and otherwise the point where shortest paths from both ends meet does (`midpoint?`).
Whatever these find, the parts put together lead from the first list to the second.
-/

namespace NodeFamily.Difference

variable {α : Type} [DecidableEq α]

/-- The place of the first occurrence of `pattern` in a list whose first item has place
`position`. -/
def occurrence? (pattern : List α) (position : Nat) : List α → Option Nat
  | [] => if pattern.isEmpty then some position else none
  | a :: rest =>
    if pattern.isPrefixOf (a :: rest) then some position
    else occurrence? pattern (position + 1) rest

/-- A common stretch that divides a longer list from a shorter one. -/
structure Match (α : Type) where
  /-- What the longer list has before and after it. -/
  longer : List α × List α
  /-- What the shorter list has before and after it. -/
  shorter : List α × List α
  /-- The stretch. -/
  common : List α

/-- The better of two matches at occurrences of a seed in the shorter list; the first one found wins
a tie. -/
def seedMatch (long short : List α) (i : Nat) (best? : Option (Match α)) (j : Nat) :
    Option (Match α) :=
  let ahead := commonStart (long.drop i) (short.drop j)
  let behind := commonEnd (long.take i) (short.take j)
  let length := match best? with
    | some m => m.common.length
    | none => 0
  if length < behind + ahead then
    some {
      longer := (long.take (i - behind), long.drop (i + ahead))
      shorter := (short.take (j - behind), short.drop (j + ahead))
      common := (short.drop (j - behind)).take (behind + ahead) }
  else best?

/-- The places from `j` on where `seed` occurs in `short`, looking at most `fuel` times. -/
def occurrences (seed short : List α) : (fuel j : Nat) → List Nat
  | 0, _ => []
  | fuel + 1, j =>
    if j < short.length then
      match occurrence? seed j (short.drop j) with
      | some k => k :: occurrences seed short fuel (k + 1)
      | none => []
    else []

/-- The longest common stretch around an occurrence of the quarter of `long` that begins at `i`, if
it has at least half the length of `long`. -/
def quarterMatch? (long short : List α) (i : Nat) : Option (Match α) :=
  let seed := (long.drop i).take (long.length / 4)
  let best? := (occurrences seed short (short.length + 1) 0).foldl (seedMatch long short i) none
  best?.filter fun m => long.length ≤ m.common.length * 2

/-- A common stretch of at least half the length of `long`, sought at its second and third quarter.
-/
def halfMatch? (long short : List α) : Option (Match α) :=
  if long.length < 4 ∨ short.length * 2 < long.length then none
  else
    match quarterMatch? long short ((long.length + 3) / 4),
        quarterMatch? long short ((long.length + 1) / 2) with
    | none, m => m
    | m, none => m
    | some m, some n => if m.common.length > n.common.length then some m else some n

/-- How far the paths from one end have come. -/
structure Frontier where
  /-- The furthest place in the first list on each diagonal, or minus one. -/
  reach : Array Int
  /-- How many diagonals at the low end have left the grid. -/
  skipLow : Int := 0
  /-- How many diagonals at the high end have left the grid. -/
  skipHigh : Int := 0

/-- The furthest place on a diagonal, or minus one beyond the ends. -/
def Frontier.reached (f : Frontier) (index : Int) : Int :=
  if index < 0 then -1 else f.reach.getD index.toNat (-1)

/-- The end of the run of equal items that begins at `x` and `y`. -/
def runEnd (as bs : Array α) : (fuel : Nat) → (x y : Int) → Int
  | 0, x, _ => x
  | fuel + 1, x, y =>
    if x < as.size ∧ y < bs.size ∧ 0 ≤ x ∧ 0 ≤ y ∧ as[x.toNat]? = bs[y.toNat]? then
      runEnd as bs fuel (x + 1) (y + 1)
    else x

/-- Takes the paths of length `d - 1` one step further on the diagonals from `k` on. `meets k x`
tells whether a path that comes to `x` on diagonal `k` meets one from the other end, and where. -/
def Frontier.sweep (as bs : Array α) (offset d : Int) (meets : Int → Int → Option (Nat × Nat)) :
    (fuel : Nat) → Int → Frontier → Except (Nat × Nat) Frontier
  | 0, _, f => .ok f
  | fuel + 1, k, f =>
    if k > d - f.skipHigh then .ok f
    else
      let i := offset + k
      let x :=
        if k = -d ∨ (k ≠ d ∧ f.reached (i - 1) < f.reached (i + 1)) then f.reached (i + 1)
        else f.reached (i - 1) + 1
      let x := runEnd as bs as.size x (x - k)
      let f := { f with reach := f.reach.setIfInBounds i.toNat x }
      if x > as.size then
        sweep as bs offset d meets fuel (k + 2) { f with skipHigh := f.skipHigh + 2 }
      else if x - k > bs.size then
        sweep as bs offset d meets fuel (k + 2) { f with skipLow := f.skipLow + 2 }
      else match meets k x with
        | some point => .error point
        | none => sweep as bs offset d meets fuel (k + 2) f

/-- Takes the paths from both ends further in turn until two of them meet, for path lengths from `d`
on. `as'` and `bs'` are the lists backwards. -/
def meetFrom (as bs as' bs' : Array α) (limit : Nat) :
    (fuel : Nat) → (d : Nat) → Frontier → Frontier → Option (Nat × Nat)
  | 0, _, _, _ => none
  | fuel + 1, d, forth, back =>
    let offset : Int := limit
    let delta : Int := as.size - bs.size
    let odd := delta % 2 ≠ 0
    let forward (k x : Int) : Option (Nat × Nat) :=
      let other := back.reached (offset + delta - k)
      if odd ∧ other ≠ -1 ∧ x ≥ as.size - other then some (x.toNat, (x - k).toNat) else none
    match forth.sweep as bs offset d forward (d + 1) (-d + forth.skipLow) with
    | .error point => some point
    | .ok forth =>
      let backward (k x : Int) : Option (Nat × Nat) :=
        let other := forth.reached (offset + delta - k)
        if ¬odd ∧ other ≠ -1 ∧ other ≥ as.size - x then
          some (other.toNat, (other - (delta - k)).toNat)
        else none
      match back.sweep as' bs' offset d backward (d + 1) (-d + back.skipLow) with
      | .error point => some point
      | .ok back => meetFrom as bs as' bs' limit fuel (d + 1) forth back

/-- A point that a shortest path between the lists passes, as places in both. -/
def midpoint? (as bs : List α) : Option (Nat × Nat) :=
  let limit := (as.length + bs.length + 1) / 2
  let start : Frontier :=
    { reach := (Array.replicate (2 * limit) (-1)).setIfInBounds (limit + 1) 0 }
  meetFrom as.toArray bs.toArray as.reverse.toArray bs.reverse.toArray limit limit 0 start start

/-- Adds a kept run before and after a script, unless it is empty. -/
def surround (start : List α) (script : List (Edit α)) (tail : List α) : List (Edit α) :=
  (if start.isEmpty then [] else [⟨.keep, start⟩]) ++ script ++
    (if tail.isEmpty then [] else [⟨.keep, tail⟩])

/-- An edit script between lists that differ at both ends, where `recurse` compares shorter ones. -/
def divide (recurse : List α → List α → List (Edit α)) (as bs : List α) : List (Edit α) :=
  if as.isEmpty then [⟨.insert, bs⟩]
  else if bs.isEmpty then [⟨.delete, as⟩]
  else
    let first := as.length > bs.length
    let long := if first then as else bs
    let short := if first then bs else as
    match occurrence? short 0 long with
    | some i =>
      let action : Action := if first then .delete else .insert
      [⟨action, long.take i⟩, ⟨.keep, short⟩, ⟨action, long.drop (i + short.length)⟩]
    | none =>
      if short.length = 1 then [⟨.delete, as⟩, ⟨.insert, bs⟩]
      else match halfMatch? long short with
        | some m =>
          let (a, b) := if first then (m.longer, m.shorter) else (m.shorter, m.longer)
          recurse a.1 b.1 ++ [⟨.keep, m.common⟩] ++ recurse a.2 b.2
        | none =>
          match midpoint? as bs with
          | some (x, y) =>
            recurse (as.take x) (bs.take y) ++ recurse (as.drop x) (bs.drop y)
          | none => [⟨.delete, as⟩, ⟨.insert, bs⟩]

/-- An edit script from one list to another, divided at most `fuel` times. -/
def compareFrom : (fuel : Nat) → List α → List α → List (Edit α)
  | 0, as, bs => [⟨.delete, as⟩, ⟨.insert, bs⟩]
  | fuel + 1, as, bs =>
    if as = bs then if as.isEmpty then [] else [⟨.keep, as⟩]
    else
      let start := commonStart as bs
      let as' := as.drop start
      let bs' := bs.drop start
      let tail := commonEnd as' bs'
      let middleA := as'.take (as'.length - tail)
      let middleB := bs'.take (bs'.length - tail)
      tidy (surround (as.take start) (divide (compareFrom fuel) middleA middleB)
        (as'.drop (as'.length - tail)))

/-- An edit script from one list to another. -/
def compare (as bs : List α) : List (Edit α) := compareFrom (as.length + bs.length + 1) as bs

end NodeFamily.Difference
