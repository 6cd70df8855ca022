import Std.Data.TreeMap
import NodeFamily.Difference.Script
import NodeFamily.Text.Cut

/-!
# Lines as characters

Texts are compared by lines, and each line by a number that it gets when it is first seen. Lists of
these numbers are compared as texts themselves, the numbers being the code points of characters.
A number that is no character is written as the one that stands for characters which cannot be
represented, so that it is not found again: the line at the number of that character is taken for
it, and there may be no such line (`OutOfRange`).
-/

namespace NodeFamily.Difference

/-- Lines by number. -/
structure LineTable where
  /-- The lines, the first of which is at number one. At number zero there is no line. -/
  lines : Array String := #[""]
  /-- The number of each line. -/
  numbers : Std.TreeMap String Nat Ord.compare := {}

/-- A number at which a table has nothing. -/
structure OutOfRange where
  /-- The number. -/
  index : Nat
  /-- How many entries the table has. -/
  length : Nat
deriving DecidableEq, Repr

/-- The failure in words. -/
def OutOfRange.message (e : OutOfRange) : String :=
  "runtime error: index out of range [" ++ toString e.index ++ "] with length " ++
    toString e.length

namespace LineTable

/-- The table with one more line at its end. -/
def add (t : LineTable) (line : String) : LineTable :=
  let n := t.lines.size
  { lines := t.lines.push line, numbers := t.numbers.insert line n }

/-- The number of a line, and the table with the line. -/
def number (t : LineTable) (line : String) : Nat × LineTable :=
  match t.numbers[line]? with
  | some n => (n, t)
  | none => (t.lines.size, t.add line)

/-- The numbers of lines, and the table with all of them. -/
def numberAll (t : LineTable) : List String → List Nat × LineTable
  | [] => ([], t)
  | line :: rest =>
    let (n, t) := t.number line
    let (ns, t) := t.numberAll rest
    (n :: ns, t)

/-- The character that a number is written as. -/
def char (n : Nat) : Char := if n.isValidChar then Char.ofNat n else '\ufffd'

/-- The line that a character is taken for. -/
def line (t : LineTable) (c : Char) : Except OutOfRange String :=
  match t.lines[c.toNat]? with
  | some line => .ok line
  | none => .error ⟨c.toNat, t.lines.size⟩

/-- A run of characters as a run of the lines that they are taken for. -/
def restore (t : LineTable) (e : Edit Char) : Except OutOfRange (Edit String) := do
  return ⟨e.action, ← e.items.mapM t.line⟩

end LineTable

end NodeFamily.Difference
