import NodeFamily.Layout.Pen.Basic

/-!
# Writing lists

Lists of expressions, parameters and fields. A list on one line stays on one line; one on several
lines keeps its line breaks, and its keys, types and comments stand in columns as long as their
sizes are alike.
-/

namespace NodeFamily.Layout.Pen

open Writing

variable (pen : Pen)

/-- The key, the position of the colon and the value of a pair. -/
def pairOf? : Expr → Option (Expr × Nat × Expr)
  | .node _ (.pair key colon value) => some (key, colon, value)
  | _ => none

/-- A size no line reaches. -/
def sizeLimit : Nat := 1000000

/-- What is known of a list while it is written. -/
structure ListState where
  /-- White space for the first line break: an indentation, unless there was one. -/
  before : Space
  /-- The number of items up to the last one that a line break follows or precedes. -/
  broken : Nat := 0
  /-- The size of the last item, or zero when it does not fit on one line. -/
  size : Nat := 0
  /-- The product of the sizes since the last section began. -/
  product : Nat := 1
  /-- The number of the sizes in the product. -/
  count : Nat := 0
  /-- The line of the last item. -/
  line : Nat

/-- Whether the size of an item is so different from those before it that they share no column: by
a factor of two and a half from their geometric mean, unless both are small. -/
def breaksColumn (s : ListState) (size : Nat) : Bool :=
  if s.size == 0 || size == 0 then true
  else if s.count == 0 || (s.size ≤ 40 && size ≤ 40) then false
  else
    let pow (n : Nat) := Nat.pow n s.count
    pow (5 * size) ≤ pow 2 * s.product || s.product * pow 5 ≤ pow (2 * size)

/-- Writes the items of a list on several lines, from the one at `index` on. `sized` says whether
their sizes count, and `single` whether there is only one. -/
def items (depth : Nat) (sized single : Bool) :
    (index : Nat) → ListState → List Expr → Writing ListState
  | _, s, [] => return s
  | index, s, x :: rest => do
    let line ← lineOf x.start
    let whole ← if sized then measured (pen.plain x) sizeLimit 0 else pure (sizeLimit + 1)
    let size ←
      if whole > sizeLimit then pure 0
      else match pairOf? x with
        | some (key, _, _) => measured (pen.plain key) sizeLimit 0
        | none => pure whole
    let newSection := breaksColumn s size
    let breaks := 0 < s.line && s.line < line
    let mut s := s
    if index > 0 then
      if !breaks then goTo x.start
      sign ","
      let n ← if breaks then breakTo line 0 s.before (newSection || s.broken < index) else pure 0
      if n > 0 then
        s := { s with before := .none, broken := index + 1 }
      else space .blank
      if n > 1 then s := { s with product := 1, count := 0 }
    match pairOf? x with
    | some (key, colon, value) =>
      if !single && size > 0 && breaks then
        pen.plain key
        signAt colon ":"
        space .cell
        pen.plain value
      else pen.exprAt x depth
    | none => pen.exprAt x depth
    if size > 0 then s := { s with product := s.product * size, count := s.count + 1 }
    items depth sized single (index + 1) { s with size, line } rest

/-- Writes items on one line. -/
def row (depth : Nat) : (index : Nat) → List Expr → Writing Unit
  | _, [] => return
  | index, x :: rest => do
    if index > 0 then
      signAt x.start ","
      space .blank
    pen.exprAt x depth
    row depth (index + 1) rest

/-- Writes expressions between the positions `prev` and `next`, which may be missing. With
`terminated`, a comma ends the list when the next token is on another line; with `flat`, its lines
are not indented. -/
def exprs (prev : Nat) (xs : List Expr) (depth : Nat) (terminated flat : Bool) (next : Nat) :
    Writing Unit := do
  match xs with
  | [] => return
  | first :: _ =>
    let table := (← get).table
    let prevPlace := table.place prev
    let nextPlace := table.place next
    let line := table.line first.start
    let lastLine := table.line ((xs.getLast?.map Expr.stop).getD 0)
    if prevPlace.isValid && prevPlace.line == line && line == lastLine then row pen depth 0 xs
    else
      let start : Space := if flat then .none else .indent
      let n ←
        if prevPlace.isValid && prevPlace.line < line then breakTo line 0 start true else pure 0
      let s : ListState :=
        if n > 0 then { before := .none, broken := 1, line := prevPlace.line }
        else { before := start, line := prevPlace.line }
      let sized := prevPlace.isValid && nextPlace.isValid
      let s ← items pen depth sized (xs.length == 1) 0 s xs
      let indented := s.before == .none && !flat
      if terminated && nextPlace.isValid && (← get).place.line < nextPlace.line then
        sign ","
        if indented then space .unindent
        space .newSection
      else if indented then space .unindent

/-- Writes names with commas between them, indented after a line break if asked to. -/
def names (ns : List Name) (indented : Bool) : Writing Unit :=
  exprs pen 0 (ns.map Expr.ofName) 1 false (!indented) 0

/-- What a parameter list belongs to. -/
inductive ParamMode
  | function
  | functionTypes
  | typeTypes
deriving DecidableEq, Repr

/-- Whether a name and a type after it could be taken for one expression. -/
def combines : Expr → Bool
  | .node _ (.star x) => !x.isTypeElement
  | .node _ (.binary left _ _ right) => combines left && !right.isTypeElement
  | .node _ (.group inner _) => !inner.isTypeElement
  | _ => false

/-- Writes parameters from the one at `index` on, after a line; `before` is the white space for the
first line break. -/
def paramsFrom : (index line : Nat) → (before : Space) → List Field → Writing (Nat × Space)
  | _, line, before, [] => return (line, before)
  | index, line, before, f :: rest => do
    let first ← lineOf f.start
    let last ← lineOf f.stop
    let breaks := 0 < line && line < first
    if index > 0 then
      if !breaks then goTo f.start
      sign ","
    let n ← if breaks then breakTo first 0 before true else pure 0
    let before := if n > 0 then .none else before
    if n == 0 && index > 0 then space .blank
    if !f.names.isEmpty then
      names pen f.names (before == .indent)
      space .blank
    pen.plain f.type.ungrouped
    paramsFrom (index + 1) last before rest

/-- Writes a parameter list. -/
def params (l : FieldList) (mode : ParamMode) : Writing Unit := do
  let (opening, closing) := if mode == .function then ("(", ")") else ("[", "]")
  signAt l.opening opening
  if !l.fields.isEmpty then
    let (line, before) ← paramsFrom pen 0 (← lineOf l.opening) .indent l.fields
    let closingLine ← lineOf l.closing
    if 0 < line && line < closingLine then
      sign ","
      let _ ← breakTo closingLine 0 .none true
    else if mode == .typeTypes && l.count == 1 && l.fields.head?.any (combines ·.type) then
      sign ","
    if before == .none then space .unindent
  signAt l.closing closing

/-- Writes the parameters and results of a function. -/
def signature : Signature → Writing Unit
  | .mk _ typeParams? ps results? => do
    match typeParams? with
    | some l => params pen l .functionTypes
    | none => pure ()
    params pen ps .function
    match results? with
    | none => pure ()
    | some l =>
      if l.count == 0 then return
      space .blank
      match l.fields with
      | [f] =>
        if f.names.isEmpty then pen.plain f.type.ungrouped else params pen l .function
      | _ => params pen l .function

/-- The most characters of a field that stands on one line with its braces. -/
def fieldLimit : Nat := 30

/-- Whether fields can stand on one line with their braces: a single one that is short. -/
def fitsLine (fields : List Field) : Writing Bool := do
  match fields with
  | [f] =>
    if f.tag?.isSome || f.aside then return false
    let n ← measured (pen.plain f.type) fieldLimit 0
    return (if f.names.isEmpty then n else n + 1) ≤ fieldLimit
  | _ => return false

/-- The signature of a method, if a type is one. -/
def signatureOf? : Expr → Option Signature
  | .node _ (.functionType s) => some s
  | _ => none

/-- Writes a method or an embedded type of an interface. -/
def element (f : Field) : Writing Unit := do
  match f.names.head?, signatureOf? f.type with
  | some n, some s =>
    pen.plain (.ofName n)
    signature pen s
  | _, _ => pen.plain f.type

/-- Writes a field of a struct on one line with its braces. -/
def fieldInLine (f : Field) : Writing Unit := do
  for (n, i) in f.names.zipIdx do
    if i > 0 then
      sign ","
      space .blank
    pen.plain (.ofName n)
  if !f.names.isEmpty then space .blank
  pen.plain f.type

/-- Writes a field of a struct on a line of its own. -/
def fieldOnLine (sep : Space) (f : Field) : Writing Unit := do
  if f.names.isEmpty then pen.plain f.type
  else
    names pen f.names false
    space sep
    pen.plain f.type
  match f.tag? with
  | some tag =>
    if !f.names.isEmpty && sep == .cell then space sep
    space sep
    pen.plain (.ofLiteral tag)
  | none =>
    if f.aside then
      space sep
      if f.names.isEmpty then space sep

/-- Writes items on lines of their own. A new section starts after an item on several lines. `last?`
is the line on which the item before started. -/
def onLines (start : α → Nat) (write : α → Writing Unit) :
    (last? : Option Nat) → List α → Writing Unit
  | _, [] => return
  | last?, a :: rest => do
    match last? with
    | some line =>
      let _ ← breakTo (← lineOf (start a)) 1 .none ((← get).outLine > line)
    | none => pure ()
    let line ← askingLine (write a)
    onLines start write (some line) rest

/-- Writes the fields of a struct or the elements of an interface in their braces. -/
def fields (l : FieldList) (isStruct : Bool) : Writing Unit := do
  let p ← get
  let commented := p.hasCommentBefore (p.table.place l.closing)
  let oneLine := p.table.line l.opening == p.table.line l.closing
  if !commented && oneLine && l.fields.isEmpty then
    signAt l.opening "\x7b"
    signAt l.closing "\x7d"
  else if !commented && oneLine && (← fitsLine pen l.fields) then
    signAt l.opening "\x7b"
    space .blank
    for f in l.fields do
      if isStruct then fieldInLine pen f else element pen f
    space .blank
    signAt l.closing "\x7d"
  else
    space .blank
    signAt l.opening "\x7b"
    space .indent
    if commented || !l.fields.isEmpty then space .newSection
    let sep : Space := if l.fields.length == 1 then .blank else .cell
    onLines Field.start (if isStruct then fieldOnLine pen sep else element pen) none l.fields
    space .unindent
    space .newSection
    signAt l.closing "\x7d"

end NodeFamily.Layout.Pen
