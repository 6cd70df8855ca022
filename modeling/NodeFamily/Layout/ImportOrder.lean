import NodeFamily.Layout.Token
import NodeFamily.Layout.Tree

/-!
# The order of imports

Imports on successive lines of a group are sorted by their paths, and an import that is there twice
is dropped. The imports change places, so that the positions of a group stay as they are, and the
comments beside an import move with it.
-/

namespace NodeFamily.Layout

/-- The characters that escapes of one letter stand for. -/
def letterEscapes : List (Char × Char) :=
  [('a', '\x07'), ('b', '\x08'), ('f', '\x0c'), ('n', '\n'), ('r', '\r'), ('t', '\t'),
    ('v', '\x0b'), ('\\', '\\'), ('\x22', '\x22'), ('\x27', '\x27')]

/-- The character that an escape after its backslash stands for, and the rest. -/
def unescape? : List Char → Option (Char × List Char)
  | [] => none
  | c :: rest =>
    let coded (base count : Nat) (cs : List Char) : Option (Char × List Char) :=
      (digitsValue? base count cs).map fun n => (Char.ofNat n, cs.drop count)
    match letterEscapes.lookup c with
    | some d => some (d, rest)
    | none =>
      if c == 'x' then coded 16 2 rest
      else if c == 'u' then coded 16 4 rest
      else if c == 'U' then coded 16 8 rest
      else coded 8 3 (c :: rest)

/-- The characters that a text in quotes stands for. -/
def unescapeAll? : (fuel : Nat) → List Char → Option (List Char)
  | 0, _ => none
  | _ + 1, [] => some []
  | fuel + 1, '\\' :: rest =>
    (unescape? rest).bind fun (c, rest) => (unescapeAll? fuel rest).map (c :: ·)
  | fuel + 1, c :: rest => (unescapeAll? fuel rest).map (c :: ·)

/-- The text that a literal in grave accents or in quotes stands for. -/
def unquote? (literal : String) : Option (List Char) :=
  match literal.toList with
  | '\x60' :: rest => some rest.dropLast
  | '\x22' :: rest => unescapeAll? (rest.length + 1) rest.dropLast
  | _ => none

namespace ImportOrder

/-- What imports are sorted by: the path, the name given to it and the comment after it. -/
def key : Spec → String × String × String
  | .path name? literal comment _ =>
    (String.ofList ((unquote? literal.text).getD []), (name?.map Name.text).getD "", comment)
  | _ => ("", "", "")

/-- Whether one import comes before another or is equal to it. -/
def isOrdered (a b : String × String × String) : Bool :=
  if a.1 != b.1 then a.1 < b.1
  else if a.2.1 != b.2.1 then a.2.1 < b.2.1
  else !(b.2.2 < a.2.2)

/-- Whether an import can be dropped before another: it is the same and has no comment. -/
def isRepeated (a b : Spec) : Bool :=
  let (path, name, comment) := key a
  path == (key b).1 && name == (key b).2.1 && comment == ""

/-- An import with the index it had. -/
abbrev Indexed := Nat × Spec

/-- Drops repeated imports and merges the lines that they leave. -/
def withoutRepeated (t : LineTable) : List Indexed → LineTable × List Indexed
  | a :: b :: rest =>
    if isRepeated a.2 b.2 then withoutRepeated (t.mergeLine (t.line a.2.start)) (b :: rest)
    else
      let (t, kept) := withoutRepeated t (b :: rest)
      (t, a :: kept)
  | specs => (t, specs)

/-- A group of comments with the index of its import and whether it stands before it. -/
abbrev Assigned := Nat × Bool × List Comment

/-- Where a group of comments starts. -/
def groupStart (g : List Comment) : Nat := (g.head?.map Comment.pos).getD 0

/-- Where a group of comments stops. -/
def groupStop (g : List Comment) : Nat := (g.getLast?.map Comment.stop).getD 0

/-- Gives each group of comments to the import before it on its line, or else to the next one;
`index` is that of an import at or before the last group. -/
def assign (t : LineTable) (starts : List Nat) : (index : Nat) → List (List Comment) → List Assigned
  | _, [] => []
  | index, g :: rest =>
    let pos := groupStart g
    let index := max index ((starts.filter (· ≤ pos)).length - 1)
    let start := starts.getD index 0
    let left := index == 0 && pos < start
    let next := !left && index + 1 < starts.length && t.line start + 1 == t.line pos
    let index := if next then index + 1 else index
    (index, left || next, g) :: assign t starts index rest

/-- An import moved to a stretch. -/
def moveTo (start stop : Nat) : Spec → Spec
  | .path name? literal comment _ =>
    .path (name?.map fun n => { n with pos := start }) { literal with pos := start } comment stop
  | s => s

/-- The position that the comments of an import move to. -/
def movedPos (specs : List Indexed) (spans : List (Nat × Nat)) (index : Nat) (left : Bool) :
    Option Nat :=
  (specs.zip spans).findSome? fun ((i, _), (start, stop)) =>
    if i == index then some (if left then start - 1 else stop) else none

/-- Sorts imports on successive lines, with the comments beside them. -/
def sortRun (t : LineTable) (groups : List (List Comment)) (specs : List Spec) :
    LineTable × List (List Comment) × List Spec :=
  match specs with
  | first :: _ :: _ =>
    let spans := specs.map fun s => (s.start, s.stop)
    let stop := (spans.getLast?.map Prod.snd).getD 0
    let begins := t.lineStart (t.line first.start)
    let lastLine := t.line stop
    let ends := if lastLine == t.lineCount then stop else t.lineStart (lastLine + 1)
    let reached := groups.takeWhile fun g => groupStop g < ends
    let before := reached.takeWhile fun g => groupStart g < begins
    let inside := reached.drop before.length
    let assigned := assign t (spans.map Prod.fst) 0 inside
    let sorted := (specs.zipIdx.map fun (s, i) => (i, s)).mergeSort fun a b =>
      isOrdered (key a.2) (key b.2)
    let (table, kept) := withoutRepeated t sorted
    let moved := assigned.map fun (index, left, g) =>
      match movedPos kept spans index left with
      | some pos => g.map fun c => { c with pos }
      | none => g
    let inside := moved.mergeSort fun a b => groupStart a ≤ groupStart b
    (table, before ++ inside ++ groups.drop reached.length,
      (kept.zip spans).map fun ((_, s), (start, stop)) => moveTo start stop s)
  | _ => (t, groups, specs)

/-- Cuts imports into runs on successive lines. -/
def runs (t : LineTable) (specs : List Spec) : List (List Spec) :=
  specs.splitBy fun a b => t.line b.start ≤ t.line a.stop + 1

/-- Sorts several runs. -/
def sortRuns (t : LineTable) (groups : List (List Comment)) :
    List (List Spec) → LineTable × List (List Comment) × List Spec
  | [] => (t, groups, [])
  | run :: rest =>
    let (t, groups, specs) := sortRun t groups run
    let (t, groups, more) := sortRuns t groups rest
    (t, groups, specs ++ more)

/-- Merges lines until what closes a group is at most one line after its last item. -/
def closeUp (last closing : Nat) : (fuel : Nat) → LineTable → LineTable
  | 0, t => t
  | fuel + 1, t =>
    let line := t.line closing
    if line > t.line last + 1 then closeUp last closing fuel (t.mergeLine (line - 1)) else t

/-- Sorts the imports of declarations, which come first. -/
def sortDecls (t : LineTable) (groups : List (List Comment)) :
    List Decl → LineTable × List (List Comment) × List Decl
  | .general documented span "import" opening specs closing :: rest =>
    let (t, groups, specs) :=
      if opening == 0 then (t, groups, specs)
      else
        let (t, groups, specs) := sortRuns t groups (runs t specs)
        let t := match specs.getLast? with
          | some s => closeUp s.start closing t.lineCount t
          | none => t
        (t, groups, specs)
    let (t, groups, rest) := sortDecls t groups rest
    (t, groups, .general documented span "import" opening specs closing :: rest)
  | decls => (t, groups, decls)

end ImportOrder

end NodeFamily.Layout
