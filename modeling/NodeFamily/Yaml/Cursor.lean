/-!
# Places in a YAML text

A `Cursor` is what is left of a text together with its place in it. The layout of YAML depends on
columns and lines, so every move keeps them: `skip` passes one character and `overBreak` one line
break.

A text is taken in by pieces of `Piece.room` octets, each of them only when its characters are
needed (`need?`). A character that may not stand in a text is a fault of its piece, so a text that
is not read to the end may have faults further on. A second byte-order mark stays in the text; while
it is what the characters taken in begin with, one character is passed at the beginning of each line
(`overMark`).
-/

namespace NodeFamily.Yaml

/-- Whether a character may stand in a text at all. -/
def isAllowed (c : Char) : Bool :=
  c == '\t' || c == '\n' || c == '\r' || (' ' ≤ c && c ≤ '~') || c == '\u0085' ||
    ('\u00a0' ≤ c && c ≤ '\ufffd') || 0x10000 ≤ c.toNat

/-- The character that stands for the end of a text. It is not allowed in one. -/
def endMark : Char := '\x00'

/-- The byte-order mark. -/
def byteOrderMark : Char := '\ufeff'

/-- Whether a character ends a line. -/
def isBreak (c : Char) : Bool :=
  c == '\n' || c == '\r' || c == '\u0085' || c == '\u2028' || c == '\u2029'

/-- Whether a character is a space or a tab. -/
def isBlank (c : Char) : Bool := c == ' ' || c == '\t'

/-- Whether a character is a blank or ends a line. -/
def isGap (c : Char) : Bool := isBlank c || isBreak c

/-- Whether a character ends a line or the text. -/
def endsLine (c : Char) : Bool := isBreak c || c == endMark

/-- Whether a character is a blank or ends a line or the text. -/
def endsWord (c : Char) : Bool := isGap c || c == endMark

/-- Whether a character may stand in the name of an anchor, a directive or a tag handle. -/
def isNameChar (c : Char) : Bool := c.isAlphanum || c == '_' || c == '-'

/-- The length of the line break in front, or zero. A carriage return and a line feed are one. -/
def breakLength : List Char → Nat
  | '\r' :: '\n' :: _ => 2
  | c :: _ => if isBreak c then 1 else 0
  | [] => 0

/-- The character that a line break stands for in a scalar. -/
def breakChar (c : Char) : Char := if c == '\u2028' || c == '\u2029' then c else '\n'

/-- A piece of a text that is taken in at once. -/
structure Piece where
  /-- The number of its characters. -/
  size : Nat := 0
  /-- Whether all of them may stand in a text. -/
  isSound : Bool := true
deriving DecidableEq, Repr

namespace Piece

/-- The number of octets that a piece has room for. -/
def room : Nat := 512

/-- A piece with one more character. -/
def push (p : Piece) (c : Char) : Piece := ⟨p.size + 1, p.isSound && isAllowed c⟩

/-- Cuts a text into pieces. `p` is the piece that is being filled, and `left` the room in it. -/
def cut (p : Piece) (left : Nat) : List Char → List Piece
  | [] => if p.size = 0 then [] else [p]
  | c :: rest =>
    if c.utf8Size ≤ left then cut (p.push c) (left - c.utf8Size) rest
    else p :: cut (push {} c) (room - c.utf8Size) rest

/-- Takes pieces in until there are `n` characters. At the end of the text the mark of the end is
taken in. The answer has the number of characters and the pieces that are left. -/
def takeIn? (n : Nat) : (known : Nat) → List Piece → Option (Nat × List Piece)
  | known, [] => some (known + 1, [])
  | known, p :: rest =>
    if !p.isSound then none
    else if n ≤ known + p.size then some (known + p.size, rest)
    else takeIn? n (known + p.size) rest

end Piece

/-- What is left of a text, and where it begins. -/
structure Cursor where
  /-- What is left. -/
  rest : List Char
  /-- How many characters of it have been taken in. -/
  ready : Nat := 0
  /-- The pieces that have not been taken in. -/
  pieces : List Piece
  /-- A bound on the number of characters of the whole text. -/
  bound : Nat
  /-- Whether the characters taken in last begin with a byte-order mark. -/
  marked : Bool := false
  /-- The number of characters before it. -/
  index : Nat := 0
  /-- The number of lines before its line. -/
  line : Nat := 0
  /-- The number of characters before it on its line. -/
  column : Nat := 0
  /-- How many line breaks have been passed since the last character that is no blank. -/
  breaks : Nat := 0
deriving Repr

namespace Cursor

/-- The beginning of a text. A byte-order mark in front does not belong to it. -/
def start (text : List Char) : Cursor :=
  let bound := text.length + 1
  match text with
  | c :: rest =>
    if c = byteOrderMark then
      { rest := rest, pieces := Piece.cut {} (Piece.room - c.utf8Size) rest, bound := bound }
    else { rest := text, pieces := Piece.cut {} Piece.room text, bound := bound }
  | [] => { rest := [], pieces := [], bound := bound }

/-- The character `i` places on, or the mark of the end. -/
def charAt (k : Cursor) (i : Nat) : Char := k.rest.getD i endMark

/-- The next character, or the mark of the end. -/
def char (k : Cursor) : Char := k.charAt 0

/-- Makes sure that `n` characters have been taken in. -/
def need? (n : Nat) (k : Cursor) : Option Cursor :=
  if n ≤ k.ready then some k
  else (Piece.takeIn? n k.ready k.pieces).map fun (ready, pieces) =>
    { k with ready := ready, pieces := pieces, marked := k.char == byteOrderMark }

/-- Passes one character that does not end a line. -/
def skip (k : Cursor) : Cursor :=
  { k with
    rest := k.rest.drop 1
    ready := k.ready - 1
    index := k.index + 1
    column := k.column + 1
    breaks := if isBlank k.char then k.breaks else 0 }

/-- Passes `n` characters that do not end a line. -/
def skipBy (n : Nat) (k : Cursor) : Cursor := Nat.repeat skip n k

/-- Passes the line break in front, if there is one. -/
def overBreak (k : Cursor) : Cursor :=
  let n := breakLength k.rest
  if n = 0 then k
  else
    { k with
      rest := k.rest.drop n
      ready := k.ready - n
      index := k.index + n
      line := k.line + 1
      column := 0
      breaks := k.breaks + 1 }

/-- Passes one character at the beginning of a line where a byte-order mark asks for it. -/
def overMark (k : Cursor) : Cursor := if k.column == 0 && k.marked then k.skip else k

/-- Passes the characters that satisfy `p`, which the mark of the end must not. -/
def passWhile? (p : Char → Bool) : (fuel : Nat) → Cursor → Option Cursor
  | 0, k => some k
  | fuel + 1, k => if p k.char then (k.skip.need? 1).bind (passWhile? p fuel) else some k

/-- Reads the characters that satisfy `p`, which the mark of the end must not. `read` is what has
been read, backwards. -/
def readWhile? (p : Char → Bool) : (fuel : Nat) → (read : List Char) → Cursor →
    Option (List Char × Cursor)
  | 0, read, k => some (read, k)
  | fuel + 1, read, k =>
    if p k.char then (k.skip.need? 1).bind (readWhile? p fuel (k.char :: read))
    else some (read, k)

/-- The characters in front that satisfy `p`, and what follows them. -/
def take? (p : Char → Bool) (k : Cursor) : Option (List Char × Cursor) :=
  (k.need? 1).bind fun k =>
    (readWhile? p k.bound [] k).map fun (read, k) => (read.reverse, k)

/-- Passes the blanks in front. -/
def overBlanks? (k : Cursor) : Option Cursor :=
  (k.need? 1).bind (passWhile? isBlank k.bound)

/-- Passes what is left of a line, without its line break. -/
def overLine? (k : Cursor) : Option Cursor :=
  (k.need? 1).bind (passWhile? (fun c => !endsLine c) k.bound)

/-- Passes the line break in front, if there is one. -/
def overBreak? (k : Cursor) : Option Cursor :=
  if isBreak k.char then (k.need? 2).map overBreak else some k

/-- How far a comment is looked for, in characters. -/
def commentReach : Nat := 512

/-- Looks for a comment that only characters with `p` stand before, from `i` places on, where `cs`
is what stands there. The answer says how far on it is. -/
def findComment? (p : Char → Bool) : (room i : Nat) → (cs : List Char) → Cursor →
    Option (Option Nat × Cursor)
  | 0, _, _, k => some (none, k)
  | room + 1, i, cs, k =>
    (k.need? (i + 1)).bind fun k =>
      match cs with
      | [] => some (none, k)
      | c :: rest =>
        if p c then findComment? p room (i + 1) rest k
        else some (if c == '#' then some i else none, k)

/-- Passes what comes before character number `seen` of the text, line breaks among it, and from
there the rest of the line. -/
def overComment? (seen : Nat) : (fuel : Nat) → Cursor → Option Cursor
  | 0, k => some k
  | fuel + 1, k =>
    (k.need? 1).bind fun k =>
      if endsLine k.char then
        if seen ≤ k.index then some k
        else (k.need? 2).bind fun k => overComment? seen fuel k.overBreak
      else overComment? seen fuel k.skip

/-- Passes the comment that begins with character number `seen` of the text, and those after it that
only blanks and empty lines stand before. -/
def overComments? : (fuel seen : Nat) → Cursor → Option Cursor
  | 0, _, k => some k
  | fuel + 1, seen, k =>
    (overComment? seen k.bound k).bind fun k =>
      let isFiller (c : Char) : Bool := isBlank c || c == '\n' || c == '\r'
      (findComment? isFiller (commentReach - 1) 1 (k.rest.drop 1) k).bind fun
        | (some i, k) => overComments? fuel (k.index + i) k
        | (none, k) => some k

/-- Passes a comment on the same line, unless a line break has just been passed. -/
def overLineComment? (k : Cursor) : Option Cursor :=
  if 0 < k.breaks then some k
  else (findComment? isBlank commentReach 0 k.rest k).bind fun
    | (some i, k) => overComment? (k.index + i) k.bound k
    | (none, k) => some k

/-- Whether a marker of three equal characters at the beginning of a line comes next. -/
def atMarker (mark : Char) (k : Cursor) : Bool :=
  k.column == 0 && k.char == mark && k.charAt 1 == mark && k.charAt 2 == mark &&
    endsWord (k.charAt 3)

/-- Whether a line that begins or ends a document comes next. -/
def atDocumentLine (k : Cursor) : Bool := k.atMarker '-' || k.atMarker '.'

end Cursor

end NodeFamily.Yaml
