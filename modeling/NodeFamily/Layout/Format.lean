import NodeFamily.Layout.Pen.Decl
import NodeFamily.Text.Raw

/-!
# The standard layout

`format?` puts Go source into the standard layout: it reads the source into a tree, sorts its
imports, writes the tree on a page with the comments where they were, gathers build constraints
before the package clause, and sets the columns. A text that is no Go source has no layout.
-/

namespace NodeFamily.Layout

/-- The number of strokes before the last empty line among the comments at the front, which is where
build constraints may stand. `offset` is the number of strokes before those ahead, and `best` the
answer so far. -/
def constraintPlace : (fuel offset best : Nat) → List Ink → Nat
  | 0, _, best, _ => best
  | fuel + 1, offset, best, ink =>
    let isGap (s : Ink) := s == .char ' ' || s == .char '\t'
    let gap := (ink.takeWhile isGap).length
    let rest := ink.drop gap
    let comment := match rest with
      | .fence :: .char '/' :: .char '/' :: _ :: _ => (rest.takeWhile (!·.isBreak)).length
      | _ => 0
    match rest.drop comment with
    | s :: after =>
      if !s.isBreak then best
      else
        let next := offset + gap + comment + 1
        constraintPlace fuel next (if comment == 0 then next else best) after
    | [] => best

/-- The line of ink at the front with its end. -/
def lineInk (ink : List Ink) : List Ink := ink.take ((ink.takeWhile (!·.isBreak)).length + 1)

/-- The text of the comment at the front of ink. -/
def commentInk (ink : List Ink) : List Char :=
  let ink := match ink with
    | .fence :: rest => rest
    | ink => ink
  (ink.takeWhile fun s => s != .fence && !s.isBreak).filterMap fun
    | .char c => some c
    | .fence => none

/-- Whether ink ends with an empty line. -/
def endsEmpty (ink : List Ink) : Bool :=
  match ink.reverse with
  | a :: b :: _ => a.isBreak && b.isBreak
  | _ => false

/-- Joins lines of ink without making two empty lines of one. -/
def joinLines (a b : List Ink) : List Ink :=
  if b.head?.any Ink.isBreak && (a.isEmpty || endsEmpty a) then a ++ b.drop 1 else a ++ b

/-- The ink from `start` on without the lines at the given numbers of strokes, added to `done`. -/
def withoutLines (ink : List Ink) : (start : Nat) → (done : List Ink) → List Nat → List Ink
  | start, done, [] => joinLines done (ink.drop start)
  | start, done, n :: rest =>
    if n < start then withoutLines ink start done rest
    else
      let done := joinLines done ((ink.drop start).take (n - start))
      withoutLines ink (n + (lineInk (ink.drop n)).length) done rest

/-- A comment as ink on a line of its own. -/
def fencedLine (text : String) : List Ink :=
  .fence :: text.toList.map Ink.char ++ [.fence, .char '\n']

/-- The condition that the constraints on a page state together, if they state one. -/
def statedConstraint? (ink : List Ink) (new old : List Nat) : Option Constraint :=
  match new with
  | [n] => Constraint.ofComment? (commentInk (ink.drop n))
  | _ :: _ :: _ => none
  | [] => do
    let xs ← old.mapM fun n => Constraint.ofComment? (commentInk (ink.drop n))
    Constraint.joined? .and xs

/-- The lines that build constraints take when they are gathered. -/
def constraintLines (ink : List Ink) (new old : List Nat) : List Ink :=
  match statedConstraint? ink new old with
  | none => (new ++ old).flatMap (fun n => lineInk (ink.drop n)) ++ [.char '\n']
  | some x =>
    let older := if old.isEmpty then [] else x.oldLines
    (("//go:build " ++ x.render) :: older).flatMap fencedLine ++ [.char '\n']

/-- Ink with the build constraints gathered: before the package clause, or where the first one
stands if that is earlier. `new` and `old` are the numbers of strokes before them. -/
def gatherConstraints (ink : List Ink) (new old : List Nat) : List Ink :=
  if new.isEmpty && old.isEmpty then ink
  else
    let latest := constraintPlace ink.length 0 0 ink
    let place := match new.head?, old.head? with
      | some n, o? => if n < latest then n else (o?.filter (· < latest)).getD latest
      | none, o? => (o?.filter (· < latest)).getD latest
    let after := withoutLines ink place [] ((new ++ old).mergeSort (· ≤ ·))
    let after := if endsEmpty after then after.dropLast else after
    ink.take place ++ constraintLines ink new old ++ after

/-- The layout of a source with the given tree. The bound on the depth of the tree is that of the
grammar. -/
def Source.layOut (s : Source) (tree : SourceTree) : String :=
  let page : Page :=
    { table := s.table, normalises := true, comments := s.comments.map (WaitingGroup.of s.table) }
  let write := tree.write (.ofDepth (8 * s.tokens.length + 64))
  let page := (write.run page).2.finish
  let ink := gatherConstraints page.ink.reverse page.newConstraints.reverse
    page.oldConstraints.reverse
  String.ofList (trimInk (setColumns ink))

/-- The layout of a source that starts with a package clause. -/
def Source.formatFile? (s : Source) : Option String := do
  let tree ← SourceTree.ofTokens? s.tokens
  let (table, comments, decls) := ImportOrder.sortDecls s.table s.comments tree.decls
  return { s with table, comments }.layOut { tree with decls }

/-- The layout of declarations without a package clause, which is written for them and taken away
again. White space at the end stays. -/
def formatDecls? (text : List Char) : Option String := do
  let clause := "package p".toList
  let s ← Source.ofChars? (clause ++ ';' :: text)
  let tree ← SourceTree.ofTokens? s.tokens
  let out := (s.layOut tree).toList.drop (clause.length + 1)
  let isSpace (c : Char) := c == ' ' || c == '\t' || c == '\n' || c == '\r'
  return String.ofList (Text.trimChars out ++ (text.reverse.takeWhile isSpace).reverse)

/-- The standard layout of Go source, or nothing when the text is none. -/
def formatText? (text : String) : Option String := do
  let s ← Source.ofChars? text.toList
  if s.tokens.head?.any (·.lexeme == .sign "package") then s.formatFile?
  else formatDecls? text.toList

/-- The standard layout of Go source. Octets that are no text are no Go source. -/
def format? (source : Text.Raw) : Option String := source.text?.bind formatText?

end NodeFamily.Layout
