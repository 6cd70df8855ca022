import NodeFamily.Layout.Columns
import NodeFamily.Layout.CommentText
import NodeFamily.Layout.Constraint

/-!
# The page

The page is what the layout has written so far. White space is held back until the next item is
written, because the comments between two items are put among it: on the line of the item before
them, or on lines of their own. The page follows two places, the one in the source and the one in
what is written, from which it tells where the source had line breaks.
-/

namespace NodeFamily.Layout

/-- White space to write. -/
inductive Space
  /-- White space that was taken back. -/
  | none
  | blank
  /-- The end of a cell. -/
  | cell
  | newline
  /-- The end of a line and of a section. -/
  | newSection
  | indent
  | unindent
deriving DecidableEq, Repr

/-- What was written last. -/
inductive Mark
  /-- White space. -/
  | space
  | name
  | integer
  | literal
  /-- A keyword or an operator. -/
  | sign (text : String)
  /-- The end of the text. -/
  | finish
deriving DecidableEq, Repr

/-- Comments to write. -/
structure WaitingGroup where
  /-- The offset of the first. -/
  offset : Nat
  /-- Whether a line break is among or in them, or has to follow them. -/
  breaks : Bool
  /-- The comments. -/
  comments : List Comment
deriving DecidableEq, Repr

/-- A group of comments as it waits to be written. -/
def WaitingGroup.of (t : LineTable) (group : List Comment) : WaitingGroup :=
  let line := (group.head?.map fun c => t.line c.pos).getD 0
  let breaks := group.any fun c => c.isLine || c.breaks > 0 || t.line c.pos != line
  ⟨(group.head?.map fun c => (t.place c.pos).offset).getD 0, breaks, group⟩

/-- The page as it is written so far. -/
structure Page where
  /-- The places of the source. -/
  table : LineTable
  /-- Whether numbers are written in one way. -/
  normalises : Bool
  /-- The comments not written yet. -/
  comments : List WaitingGroup
  /-- What is written, backwards. -/
  ink : List Ink := []
  /-- The number of strokes written. -/
  size : Nat := 0
  /-- How far lines are indented. -/
  indent : Nat := 0
  /-- How many composite literals are open. -/
  level : Nat := 0
  /-- Whether no blank is put between a comment and the next item. -/
  noExtraBlank : Bool := false
  /-- Whether no line is broken between a comment and a closing brace. -/
  noExtraBreak : Bool := false
  /-- Whether cells end before the end of the line. -/
  endsCells : Bool := false
  /-- Whether a line break would count as a semicolon. -/
  ready : Bool := false
  /-- What was written last. -/
  last : Mark := .space
  /-- The bracket that was written last, if only white space follows it. -/
  opened : Mark := .space
  /-- The white space held back. -/
  waiting : List Space := []
  /-- The strokes before each comment with a build constraint of the newer form, backwards. -/
  newConstraints : List Nat := []
  /-- The strokes before each comment with a build constraint of the older form, backwards. -/
  oldConstraints : List Nat := []
  /-- The place in the source. -/
  place : Place := ⟨0, 1, 1⟩
  /-- The line that is written. -/
  outLine : Nat := 1
  /-- The column that is written. -/
  outColumn : Nat := 1
  /-- The place in the source after the last item. -/
  lastPlace : Place := {}
  /-- Whether the line of the next item is asked for. -/
  asksLine : Bool := false
  /-- The line that was asked for. -/
  askedLine : Nat := 0

namespace Page

/-- Whether a character breaks the line. -/
def isBreak (c : Char) : Bool := c == '\n' || c == '\x0c'

/-- The most line breaks in a row. -/
def maxBreaks : Nat := 2

/-- Writes white space. Once cells have ended, white space does not end a cell, and the end of the
line ends the section. -/
def putSpace (c : Char) (n : Nat) (p : Page) : Page :=
  let ends := p.endsCells && isBreak c
  let c :=
    if !p.endsCells then c
    else if c == '\t' || c == '\x0b' then ' '
    else if isBreak c then '\x0c'
    else c
  let p := { p with
    endsCells := p.endsCells && !ends, ink := List.replicate n (Ink.char c) ++ p.ink,
    size := p.size + n }
  if isBreak c then
    { p with place := ⟨p.place.offset + n, p.place.line + n, 1⟩, outLine := p.outLine + n,
             outColumn := 1 }
  else
    { p with place := ⟨p.place.offset + n, p.place.line, p.place.column + n⟩,
             outColumn := p.outColumn + n }

/-- Indents the line. -/
def putIndent (p : Page) : Page :=
  let n := p.indent
  { p with
    ink := List.replicate n (Ink.char '\t') ++ p.ink, size := p.size + n,
    place := ⟨p.place.offset + n, p.place.line, p.place.column + n⟩,
    outColumn := p.outColumn + n }

/-- Writes text that stands at a place of the source, in fences if asked to. -/
def putText (here : Place) (text : List Char) (fenced : Bool) (p : Page) : Page :=
  let p := if p.outColumn == 1 then p.putIndent else p
  let start := if here.isValid then here else p.place
  let strokes := text.map Ink.char
  let strokes := if fenced then .fence :: strokes ++ [.fence] else strokes
  let breaks := (text.filter isBreak).length
  let length := octets text
  let tail := octets (text.reverse.takeWhile (!isBreak ·)) + 1
  let place : Place :=
    if breaks > 0 then ⟨start.offset + length, start.line + breaks, tail⟩
    else ⟨start.offset + length, start.line, start.column + length⟩
  { p with
    ink := strokes.reverse ++ p.ink, size := p.size + strokes.length, place, lastPlace := place,
    outLine := p.outLine + breaks,
    outColumn := if breaks > 0 then tail else p.outColumn + length,
    endsCells := p.endsCells || breaks > 0 }

/-- Writes white space that was held back. A line break before the end of an indentation comes after
it and ends the section. -/
def putSpaces (p : Page) : List Space → Page
  | [] => p
  | .newline :: .unindent :: rest | .newSection :: .unindent :: rest =>
    putSpaces { p with indent := p.indent - 1 } (.newSection :: rest)
  | .none :: rest => putSpaces p rest
  | .blank :: rest => putSpaces (p.putSpace ' ' 1) rest
  | .cell :: rest => putSpaces (p.putSpace '\x0b' 1) rest
  | .newline :: rest => putSpaces (p.putSpace '\n' 1) rest
  | .newSection :: rest => putSpaces (p.putSpace '\x0c' 1) rest
  | .indent :: rest => putSpaces { p with indent := p.indent + 1 } rest
  | .unindent :: rest => putSpaces { p with indent := p.indent - 1 } rest
termination_by spaces => spaces.length

/-- Writes the first `n` pieces of the white space held back. -/
def release (n : Nat) (p : Page) : Page :=
  let q := p.putSpaces (p.waiting.take n)
  { q with waiting := p.waiting.drop n }

/-- Writes all white space held back. -/
def releaseAll (p : Page) : Page := p.release p.waiting.length

/-- The white space before a comment on the line of the last item, with blanks taken back, the
number of pieces before one that is no blank, no cell and no indentation, if there is such a one,
and whether a cell ends in it. -/
def besideComment : List Space → List Space × Option Nat × Bool
  | .blank :: rest =>
    let (spaces, stop, sep) := besideComment rest
    (.none :: spaces, stop.map (· + 1), sep)
  | .cell :: rest =>
    let (spaces, stop, _) := besideComment rest
    (.cell :: spaces, stop.map (· + 1), true)
  | .indent :: rest =>
    let (spaces, stop, sep) := besideComment rest
    (.indent :: spaces, stop.map (· + 1), sep)
  | [] => ([], none, false)
  | spaces => (spaces, some 0, false)

/-- The white space before a comment on a line of its own, with blanks and the first line break
taken back, the number of pieces before the comment, if it is not before all of them, and whether a
line break was taken back. The end of an indentation goes before the comment when another follows,
or when the comment is `aligned` with the next item. -/
def aboveComment (aligned : Bool) : List Space → List Space × Option Nat × Bool
  | .blank :: rest | .cell :: rest =>
    let (spaces, stop, dropped) := aboveComment aligned rest
    (.none :: spaces, stop.map (· + 1), dropped)
  | .indent :: rest =>
    let (spaces, stop, dropped) := aboveComment aligned rest
    (.indent :: spaces, stop.map (· + 1), dropped)
  | .unindent :: rest =>
    if rest.head? == some .unindent || aligned then
      let (spaces, stop, dropped) := aboveComment aligned rest
      (.unindent :: spaces, stop.map (· + 1), dropped)
    else (.unindent :: rest, some 0, false)
  | .newline :: rest | .newSection :: rest => (.none :: rest, some 0, true)
  | [] => ([], none, false)
  | spaces => (spaces, some 0, false)

/-- Writes what goes between the last item and a comment at a place. `before?` is the comment before
it among those before the item at `next`. -/
def putBeforeComment (here next : Place) (before? : Option Comment) (mark : Mark) (p : Page) :
    Page :=
  if p.size == 0 then p
  else if here.line == p.lastPlace.line && before?.all (!·.isLine) then
    let (p, sep) :=
      if before?.isNone then
        let (spaces, stop, sep) := besideComment p.waiting
        ({ p with waiting := spaces }.release (stop.getD 0), sep)
      else (p, false)
    if sep then p else p.putSpace (if here.line == next.line then ' ' else '\t') 1
  else
    let aligned := mark != .sign "\x7d" && here.column == next.column
    let (spaces, stop, dropped) := aboveComment aligned p.waiting
    let p := { p with waiting := spaces }.release (stop.getD 0)
    let n := if here.isValid && p.lastPlace.isValid then here.line - p.lastPlace.line else 0
    let n := if p.indent == 0 && dropped && before?.isNone then n + 1 else n
    let n := if n == 0 && before?.any Comment.isLine then 1 else n
    if n > 0 then p.putSpace '\x0c' (min n maxBreaks) else p

/-- Writes the lines of a comment in marks. -/
def putLines (here : Place) (p : Page) : List (List Char) → Page
  | [] => p
  | line :: rest =>
    let p := if line.isEmpty then p else p.putText here (Text.dropEndWhile Text.isBlank line) true
    if rest.isEmpty then p
    else
      let p := p.putSpace '\x0c' 1
      putLines p.place p rest

/-- Writes a comment. -/
def putComment (c : Comment) (p : Page) : Page :=
  let here := p.table.place c.pos
  let text := c.text.toList
  let indent := p.indent
  let p := if "//line ".toList.isPrefixOf text && (!here.isValid || here.column == 1) then
      { p with indent := 0 }
    else p
  let p :=
    if c.isLine then
      let p :=
        if (Constraint.newForm? text).isSome then
          { p with newConstraints := p.size :: p.newConstraints }
        else if (Constraint.oldForm? text).isSome then
          { p with oldConstraints := p.size :: p.oldConstraints }
        else p
      p.putText here (Text.dropEndWhile Text.isBlank text) true
    else
      let lines := Text.cutAt '\n' text
      let lines :=
        if here.isValid && here.column == 1 && p.indent > 0 then
          lines.take 1 ++ (lines.drop 1).map fun line => ' ' :: ' ' :: ' ' :: line
        else lines
      p.putLines here (alignLines lines)
  { p with indent }

/-- The white space after a comment, of which only a line break is kept that is needed. Also whether
it is still needed, and whether the end of a section was taken back. -/
def afterComment : (needed : Bool) → List Space → List Space × Bool × Bool
  | needed, [] => ([], needed, false)
  | needed, .blank :: rest | needed, .cell :: rest =>
    let (spaces, still, dropped) := afterComment needed rest
    (.none :: spaces, still, dropped)
  | needed, .newline :: rest =>
    let (spaces, still, dropped) := afterComment false rest
    ((if needed then .newline else .none) :: spaces, still, dropped)
  | needed, .newSection :: rest =>
    let (spaces, still, dropped) := afterComment false rest
    ((if needed then .newSection else .none) :: spaces, still, dropped || !needed)
  | needed, s :: rest =>
    let (spaces, still, dropped) := afterComment needed rest
    (s :: spaces, still, dropped)

/-- Writes what follows the last of the comments before an item, with a line break if one is needed.
Also whether one was written, and whether the end of a section was taken back. -/
def putAfterComment (needed : Bool) (p : Page) : Page × Bool × Bool :=
  let (spaces, still, dropped) := afterComment needed p.waiting
  let p := { p with waiting := spaces }.releaseAll
  (if still then p.putSpace '\n' 1 else p, needed, dropped)

/-- Whether the next comment stands before a place. It does not as long as a line break would end
the statement. -/
def hasCommentBefore (next : Place) (p : Page) : Bool :=
  p.comments.head?.any fun g => g.offset < next.offset && (!p.ready || !g.breaks)

/-- Writes the comments of a group. Gives the last of those written so far. -/
def putGroup (next : Place) (mark : Mark) (p : Page) (last? : Option Comment) :
    List Comment → Page × Option Comment
  | [] => (p, last?)
  | c :: rest =>
    let p := (p.putBeforeComment (p.table.place c.pos) next last? mark).putComment c
    putGroup next mark p (some c) rest

/-- The position after a group of comments. -/
def groupStop (g : List Comment) : Nat := (g.getLast?.map Comment.stop).getD 0

/-- Whether a group of comments stands right above the next item as its documentation. -/
def isDocumentation (next : Place) (g : List Comment) (p : Page) : Bool :=
  p.last != .sign "import" && g.head?.any (fun c => (p.table.place c.pos).column == 1) &&
    p.table.place (groupStop g + 1) == next

/-- Writes the groups of comments before a place. Gives the last comment, and whether documentation
was dropped. -/
def putGroups (next : Place) (mark : Mark) :
    List WaitingGroup → (last? : Option Comment) → Page → Page × Option Comment × Bool
  | [], last?, p => (p, last?, false)
  | g :: rest, last?, p =>
    if !p.hasCommentBefore next then (p, last?, false)
    else if p.isDocumentation next g.comments then
      match layOutGroup g.comments with
      | [] =>
        let here := p.table.place ((g.comments.head?.map Comment.pos).getD 0)
        let p := p.putBeforeComment here next last? mark
        ({ p with place := next, lastPlace := next, comments := rest }, last?, true)
      | laid =>
        let (p, _) := p.putGroup next mark last? laid
        let stop := p.table.place (groupStop g.comments)
        putGroups next mark rest g.comments.getLast?
          { p with place := stop, lastPlace := stop, comments := rest }
    else
      let (p, last?) := p.putGroup next mark last? g.comments
      putGroups next mark rest last? { p with comments := rest }

/-- Whether a line break is held back. -/
def holdsBreak (p : Page) : Bool := p.waiting.any fun s => s == .newline || s == .newSection

/-- Writes the comments before the item at a place, with the white space around them. Also whether a
line break was written last, and whether the end of a section was taken back. -/
def putComments (next : Place) (mark : Mark) (p : Page) : Page × Bool × Bool :=
  let (p, last?, dropped) := putGroups next mark p.comments none p
  if dropped then p.putAfterComment false
  else match last? with
    | none => (p, false, false)
    | some c =>
      let beside :=
        !p.noExtraBlank && !c.isLine && p.table.line c.pos == next.line && mark != .sign "," &&
          (mark != .sign ")" || p.opened == .sign "(") &&
          (mark != .sign "]" || p.opened == .sign "[")
      let broken := beside && p.holdsBreak && !p.noExtraBreak && p.level == 0
      let p := if beside && !broken then p.putSpace ' ' 1 else p
      let needed := broken || c.isLine || mark == .finish ||
        (mark == .sign "\x7d" && !p.noExtraBreak)
      p.putAfterComment needed

/-- Writes the comments and the white space before the item at a place. -/
def flush (next : Place) (mark : Mark) (p : Page) : Page × Bool × Bool :=
  if p.hasCommentBefore next then p.putComments next mark else (p.releaseAll, false, false)

/-- Takes note of a bracket that was opened last. -/
def noteOpened (p : Page) : Page :=
  match p.last with
  | .space => p
  | .sign s => { p with opened := if s == "(" || s == "[" then .sign s else .space }
  | _ => { p with opened := .space }

/-- Writes an item. Line breaks between it and the comments before it stay. -/
def putItem (mark : Mark) (text : String) (fenced ready : Bool) (p : Page) : Page :=
  let p := { p with last := mark }
  let next := p.place
  let (p, broke, dropped) := p.flush next mark
  let n := if p.ready then 0 else min (next.line - p.place.line) maxBreaks
  let n := if broke && n == maxBreaks then maxBreaks - 1 else n
  let p := if n > 0 then p.putSpace (if dropped then '\x0c' else '\n') n else p
  let p := if p.asksLine then { p with asksLine := false, askedLine := p.outLine } else p
  { p.putText next text.toList fenced with ready := ready && n == 0 }

/-- The most pieces of white space that are held back. -/
def waitingLimit : Nat := 16

/-- Holds back white space. -/
def hold (s : Space) (p : Page) : Page :=
  let p := p.noteOpened
  if s == .none then p
  else
    let p := if p.waiting.length == waitingLimit then p.releaseAll else p
    { p with
      waiting := p.waiting ++ [s], last := .space,
      ready := p.ready && s != .newline && s != .newSection }

/-- Whether two signs without a blank between them would make another one. -/
def wouldJoin (last : Mark) (c : Option Char) : Bool :=
  match last, c with
  | .integer, some '.' => true
  | .sign "+", some '+' => true
  | .sign "-", some '-' => true
  | .sign "/", some '*' => true
  | .sign "<", some '-' => true
  | .sign "<", some '<' => true
  | .sign "&", some '&' => true
  | .sign "&", some '^' => true
  | _, _ => false

/-- Writes a keyword or an operator. -/
def putSign (s : String) (p : Page) : Page :=
  let p := p.noteOpened
  let p := if wouldJoin p.last s.toList.head? then { p with waiting := [.blank] } else p
  let ready :=
    ["break", "continue", "fallthrough", "return", "++", "--", ")", "]", "\x7d"].contains s
  p.putItem (.sign s) s false ready

end Page

/-- Writing on the page. -/
abbrev Writing := StateM Page

namespace Writing

/-- Holds back white space. -/
def space (s : Space) : Writing Unit := modify (·.hold s)

/-- Writes a keyword or an operator. -/
def sign (s : String) : Writing Unit := modify (·.putSign s)

/-- Goes to a position of the source, if there is one. -/
def goTo (pos : Nat) : Writing Unit :=
  modify fun p => if pos = 0 then p else { p with place := p.table.place pos }

/-- Writes a keyword or an operator that stands at a position. -/
def signAt (pos : Nat) (s : String) : Writing Unit := do
  goTo pos
  sign s

/-- Writes a name at the place reached. -/
def word (text : String) : Writing Unit :=
  modify fun p => p.noteOpened.putItem .name text false true

/-- Writes a literal at the place reached. -/
def literal (kind : LiteralKind) (text : String) : Writing Unit :=
  modify fun p =>
    p.noteOpened.putItem (if kind == .integer then .integer else .literal) text true true

/-- The line of a position. -/
def lineOf (pos : Nat) : Writing Nat := return (← get).table.line pos

/-- Breaks the line as often as the source does before a line, and `least` times at least, after
some white space and with the end of a section if asked to. Gives the number of breaks, where the
end of a section counts for two. -/
def breakTo (line least : Nat) (before : Space) (newSection : Bool) : Writing Nat := do
  let p ← get
  let n := max (min (line - p.place.line) Page.maxBreaks) least
  if n == 0 then return 0
  space before
  if newSection then space .newSection
  let more := if newSection then n - 1 else n
  for _ in List.range more do
    space .newline
  return if newSection then more + 2 else more

/-- Switches the rules for comments before the next item. -/
def toggle (blank line : Bool) : Writing Unit :=
  modify fun p =>
    let p := p.noteOpened
    { p with noExtraBlank := p.noExtraBlank != blank, noExtraBreak := p.noExtraBreak != line }

/-- Writes something and gives the line of its first item. -/
def askingLine (act : Writing Unit) : Writing Nat := do
  let before := (← get).askedLine
  modify fun p => { p with asksLine := true }
  act
  let line := (← get).askedLine
  modify fun p => { p with askedLine := before }
  return line

end Writing

end NodeFamily.Layout
