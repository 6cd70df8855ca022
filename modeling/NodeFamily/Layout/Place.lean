/-!
# Places in a source text

A position is the number of octets before a character plus one, so that zero is no position. The
line table of a text turns positions into places, which have a line and a column as well. Two lines
can be merged into one, which moves all later lines up but no position.
-/

namespace NodeFamily.Layout

/-- The number of octets that characters take in UTF-8. -/
def octets (cs : List Char) : Nat := cs.foldl (fun n c => n + c.utf8Size) 0

/-- A place in a text. Lines and columns are counted from one, and columns in octets; the line zero
is that of no place. -/
structure Place where
  /-- The number of octets before the place. -/
  offset : Nat := 0
  /-- The line. -/
  line : Nat := 0
  /-- The column. -/
  column : Nat := 0
deriving DecidableEq, Repr

/-- Whether there is such a place. -/
def Place.isValid (p : Place) : Bool := p.line > 0

/-- The places of a text by their offsets. -/
structure LineTable where
  /-- The offsets at which lines start, ascending. -/
  starts : List Nat
  /-- The place of every offset. -/
  places : Array Place
deriving Repr

/-- The places of `count` offsets from `offset` on, on the line that starts at `start`, put after
the places in `done`. The lines after it start at the offsets in `later`. -/
def placesFrom (offset line start : Nat) (later : List Nat) (done : Array Place) :
    (count : Nat) → Array Place
  | 0 => done
  | count + 1 =>
    match later with
    | next :: later' =>
      if next ≤ offset then
        placesFrom (offset + 1) (line + 1) next later'
          (done.push ⟨offset, line + 1, offset - next + 1⟩) count
      else
        placesFrom (offset + 1) line start later (done.push ⟨offset, line, offset - start + 1⟩)
          count
    | [] =>
      placesFrom (offset + 1) line start [] (done.push ⟨offset, line, offset - start + 1⟩) count

/-- The offsets after the line breaks of a text. -/
def offsetsAfterBreaks (offset : Nat) : List Char → List Nat
  | [] => []
  | c :: rest =>
    let next := offset + c.utf8Size
    if c == '\n' then next :: offsetsAfterBreaks next rest else offsetsAfterBreaks next rest

namespace LineTable

/-- The table of a text of `size` octets whose lines start at the given offsets. -/
def ofStarts (starts : List Nat) (size : Nat) : LineTable :=
  ⟨starts, placesFrom 0 1 0 (starts.drop 1) (Array.mkEmpty (size + 1)) (size + 1)⟩

/-- The table of a text. A line break that ends the text starts no line. -/
def ofText (cs : List Char) : LineTable :=
  let size := octets cs
  ofStarts (0 :: (offsetsAfterBreaks 0 cs).filter (· < size)) size

/-- The number of octets of the text. -/
def size (t : LineTable) : Nat := t.places.size - 1

/-- The place of a position. A position after the end is the end. -/
def place (t : LineTable) (pos : Nat) : Place :=
  if pos = 0 then {} else t.places.getD (min (pos - 1) t.size) {}

/-- The line of a position. -/
def line (t : LineTable) (pos : Nat) : Nat := (t.place pos).line

/-- The number of lines. -/
def lineCount (t : LineTable) : Nat := t.starts.length

/-- The position at which a line starts. -/
def lineStart (t : LineTable) (line : Nat) : Nat := t.starts.getD (line - 1) 0 + 1

/-- The table in which a line goes on with the next one. -/
def mergeLine (t : LineTable) (line : Nat) : LineTable :=
  ofStarts (t.starts.eraseIdx line) t.size

end LineTable

end NodeFamily.Layout
