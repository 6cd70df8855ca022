import NodeFamily.Layout.Pen.Lists

/-!
# Writing expressions

Binary operators have blanks around them or not, by how strong they bind and how deep they stand in
the expression, so that the blanks show what belongs together.
-/

namespace NodeFamily.Layout.Pen

open Writing

variable (pen : Pen)

/-- What the operators of an expression are like: whether some are additive, whether some are
multiplicative, and the least precedence that needs blanks lest two operators join. -/
structure Operators where
  additive : Bool := false
  multiplicative : Bool := false
  problem : Nat := 0
deriving DecidableEq, Repr

/-- What two sets of operators are like together. -/
def Operators.merge (a b : Operators) : Operators :=
  ⟨a.additive || b.additive, a.multiplicative || b.multiplicative, max a.problem b.problem⟩

/-- What the right operand alone adds to the operators of an operation. -/
def rightProblem (op : String) : Expr → Operators
  | .node _ (.star _) => { problem := if op == "/" then 5 else 0 }
  | .node _ (.unary r _) =>
    let both := op ++ r
    { problem := if ["/*", "&&", "&^"].contains both then 5
        else if both == "++" || both == "--" then 4
        else 0 }
  | _ => {}

/-- What the operators of an expression are like, if it is an operation whose operators bind as
strong as given or stronger. -/
def operatorsOf (least : Nat) : Expr → Operators
  | .node _ (.binary left _ op right) =>
    let strength := precedence op
    if strength < least then {}
    else
      let own : Operators := { additive := strength == 4, multiplicative := strength == 5 }
      let r := rightProblem op right
      let all := (own.merge (operatorsOf strength left)).merge (operatorsOf (strength + 1) right)
      if r.problem == 5 then { all with problem := 5 } else all.merge r
  | _ => {}

/-- The precedence from which on operators have no blanks around them. -/
def cutoff (x : Expr) (depth : Nat) : Nat :=
  let ops := operatorsOf 0 x
  if ops.problem > 0 then ops.problem + 1
  else if ops.additive && ops.multiplicative then (if depth == 1 then 5 else 4)
  else if depth == 1 then 6
  else 4

/-- How much deeper the left operand of an operation stands: not at all when it is an operation of
the same precedence. -/
def deeperBy (prec : Nat) : Expr → Nat
  | .node _ (.binary _ _ op _) => if precedence op == prec then 0 else 1
  | _ => 1

/-- Whether an expression is an operation. -/
def isBinary : Expr → Bool
  | .node _ (.binary _ _ _ _) => true
  | _ => false

/-- Writes an operation. -/
def binary (x left : Expr) (opPos : Nat) (op : String) (right : Expr) (prec depth : Nat) :
    Writing Unit := do
  let own := precedence op
  if own < prec then
    sign "("
    pen.exprAt x (max 1 (depth - 1))
    sign ")"
  else
    let blanks := own < cutoff x depth
    pen.expr left own (depth + deeperBy own left)
    if blanks then space .blank
    let leftLine := (← get).place.line
    let rightLine ← lineOf right.start
    signAt opPos op
    let n ←
      if leftLine != rightLine && leftLine > 0 && rightLine > 0 then
        breakTo rightLine 1 .indent true
      else pure 0
    if blanks && n == 0 then space .blank
    pen.expr right (own + 1) (depth + 1)
    if n > 0 then space .unindent

/-- A number as it is written: with small letters, and without zeros before an imaginary one. -/
def normalNumber (text : List Char) : List Char :=
  let lowerLast (mark small : Char) (cs : List Char) : List Char :=
    let tail := cs.reverse.takeWhile (· != mark)
    if tail.length == cs.length then cs
    else cs.take (cs.length - tail.length - 1) ++ small :: tail.reverse
  match text with
  | '0' :: 'x' :: rest | '0' :: 'X' :: rest => lowerLast 'P' 'p' ('0' :: 'x' :: rest)
  | '0' :: 'o' :: rest | '0' :: 'O' :: rest => '0' :: 'o' :: rest
  | '0' :: 'b' :: rest | '0' :: 'B' :: rest => '0' :: 'b' :: rest
  | [_] => text
  | _ =>
    if text.contains 'E' then lowerLast 'E' 'e' text
    else if text.getLast? == some 'i' && !text.contains '.' && !text.contains 'e' then
      match text.dropWhile fun c => c == '0' || c == '_' with
      | ['i'] => ['0', 'i']
      | rest => rest
    else text

/-- Writes a literal, a number in one way if the page asks for it. -/
def literalText (kind : LiteralKind) (text : String) : Writing Unit := do
  if (← get).normalises && kind.isNumber then
    literal kind (String.ofList (normalNumber text.toList))
  else literal kind text

/-- Writes a member of an expression. A member on another line is indented, and with `method` it
stays so, which is told. -/
def member (base : Expr) (n : Name) (depth : Nat) (method : Bool) : Writing Bool := do
  pen.expr base highestPrecedence depth
  sign "."
  let line ← lineOf n.pos
  let place := (← get).place
  let breaks := place.isValid && place.line < line
  if breaks then
    space .indent
    space .newline
  goTo n.pos
  word n.text
  if breaks && !method then space .unindent
  return breaks

/-- Whether what is called needs parentheses. -/
def needsParens : Expr → Bool
  | .node _ (.functionType _) => true
  | .node _ (.channel .receive _ _) => true
  | _ => false

/-- Writes a call. -/
def call (function : Expr) (opening : Nat) (args : List Expr) (dots closing depth : Nat) :
    Writing Unit := do
  let depth := if args.length > 1 then depth + 1 else depth
  let parens := needsParens function
  if parens then sign "("
  let indented ←
    match function.form with
    | .member base n => member pen base n depth true
    | _ =>
      pen.expr function highestPrecedence depth
      pure false
  if parens then sign ")"
  signAt opening "("
  if dots > 0 then
    exprs pen opening args depth false false dots
    signAt dots "..."
    if (← lineOf dots) < (← lineOf closing) then
      sign ","
      space .newSection
  else exprs pen opening args depth true false closing
  signAt closing ")"
  if indented then space .unindent

/-- Writes the bounds of a slice from the one at `index` on, with blanks around the colons if asked
to. -/
def bounds (blanks : Bool) (depth : Nat) : (before? : Option Expr) → (index : Nat) →
    List (Option Expr) → Writing Unit
  | _, _, [] => return
  | before?, index, x? :: rest => do
    if index > 0 then
      if before?.isSome && blanks then space .blank
      sign ":"
      if x?.isSome && blanks then space .blank
    match x? with
    | some x => pen.exprAt x (depth + 1)
    | none => pure ()
    bounds blanks depth x? (index + 1) rest

/-- Writes a slice. -/
def slice (base : Expr) (opening : Nat) (low? high? most? : Option Expr) (closing depth : Nat) :
    Writing Unit := do
  pen.expr base highestPrecedence 1
  signAt opening "["
  let all := [low?, high?] ++ (if most?.isSome then [most?] else [])
  let given := all.filterMap id
  bounds pen (depth ≤ 1 && given.length > 1 && given.any isBinary) depth none 0 all
  signAt closing "]"

/-- Writes a composite literal. -/
def composite (type? : Option Expr) (opening : Nat) (elements : List Expr) (closing depth : Nat) :
    Writing Unit := do
  match type? with
  | some t => pen.expr t highestPrecedence depth
  | none => pure ()
  modify fun p => { p with level := p.level + 1 }
  signAt opening "\x7b"
  exprs pen opening elements 1 true false closing
  space .indent
  space .unindent
  toggle (!elements.isEmpty) true
  signAt closing "\x7d"
  toggle (!elements.isEmpty) true
  modify fun p => { p with level := p.level - 1 }

/-- The most characters of a function that stands on one line with its body. -/
def bodyLimit : Nat := 100

/-- The sizes of the comments before a place. -/
def commentsSize (next : Place) (ready : Bool) : List WaitingGroup → Nat
  | [] => 0
  | g :: rest =>
    if g.offset < next.offset && (!ready || !g.breaks) then
      g.comments.foldl (fun n c => n + octets c.text.toList) 0 + commentsSize next ready rest
    else 0

/-- The size of statements on one line with signs between them, added to `size`. -/
def stmtsSize : (index size : Nat) → List Stmt → Writing Nat
  | _, size, [] => return size
  | index, size, s :: rest => do
    if size > bodyLimit then return size
    let indent := match s.act with
      | .labeled _ _ _ => 1
      | _ => 0
    let n ← measured (pen.stmt s false) bodyLimit indent
    stmtsSize (index + 1) (size + (if index > 0 then 2 else 0) + n) rest

/-- The size of a block on one line, above the limit when it has to stand on several. -/
def blockSize (b : Block) : Writing Nat := do
  let p ← get
  if p.table.line b.opening != p.table.line b.closing || b.stmts.length > 5 then
    return bodyLimit + 1
  stmtsSize pen 0 (commentsSize (p.table.place b.closing) p.ready p.comments) b.stmts

/-- Writes statements on lines of their own, from the one at `index` on, of `count` in all. `line`
is the line on which the one before started, `cases` says whether each starts a section, and
`closes` whether a brace follows the last one. -/
def stmtsFrom (cases closes : Bool) (count : Nat) :
    (index line : Nat) → List Stmt → Writing Unit
  | _, _, [] => return
  | index, line, s :: rest => do
    if s.isEmpty then stmtsFrom cases closes count index line rest
    else
      let p ← get
      if p.size > 0 then
        let _ ← breakTo (p.table.line s.start) 1 .none (index == 0 || cases || p.outLine > line)
      let started ← askingLine (pen.stmt s (closes && index + 1 == count))
      stmtsFrom cases closes count (index + 1) (started + s.labels) rest

/-- Writes the statements of a block or a case, indented unless they are cases. -/
def stmts (ss : List Stmt) (cases closes : Bool) : Writing Unit := do
  if !cases then space .indent
  stmtsFrom pen cases closes ss.length 0 0 ss
  if !cases then space .unindent

/-- Writes a block on several lines. -/
def block (b : Block) (cases : Bool) : Writing Unit := do
  signAt b.opening "\x7b"
  stmts pen b.stmts cases true
  let _ ← breakTo (← lineOf b.closing) 1 .none false
  signAt b.closing "\x7d"

/-- Writes the body of a function whose head has a size, on the same line if it is short. -/
def body (headSize : Nat) (sep : Space) (b : Block) : Writing Unit := do
  let level := (← get).level
  modify fun p => { p with level := 0 }
  if headSize + (← blockSize pen b) ≤ bodyLimit then
    space sep
    signAt b.opening "\x7b"
    if !b.stmts.isEmpty then
      space .blank
      for (s, i) in b.stmts.zipIdx do
        if i > 0 then
          sign ";"
          space .blank
        pen.stmt s (i + 1 == b.stmts.length)
      space .blank
    toggle false true
    signAt b.closing "\x7d"
    toggle false true
  else
    if sep != .none then space .blank
    block pen b false
  modify fun p => { p with level }

/-- The columns between one that was written and the current one, and more than any limit when the
source has a line break between the position and the current place. -/
def distance (start column : Nat) : Writing Nat := do
  let p ← get
  return if p.place.isValid && p.table.line start == p.place.line then p.outColumn - column
    else 1073741824

/-- Writes a function with its body. -/
def function (s : Signature) (b : Block) : Writing Unit := do
  signAt s.span.start "func"
  let column := (← get).outColumn - 4
  signature pen s
  body pen (← distance s.span.start column) .blank b

/-- Writes a type with brackets or a keyword before it. -/
def compound (form : Form) : Writing Unit := do
  match form with
  | .array length? element =>
    sign "["
    match length? with
    | some n => pen.plain n
    | none => pure ()
    sign "]"
    pen.plain element
  | .struct l =>
    sign "struct"
    fields pen l true
  | .functionType s =>
    sign "func"
    signature pen s
  | .interface l =>
    sign "interface"
    fields pen l false
  | .dictionary key value =>
    sign "map"
    sign "["
    pen.plain key
    sign "]"
    pen.plain value
  | .channel direction arrow value =>
    match direction with
    | .both => sign "chan"
    | .receive =>
      sign "<-"
      sign "chan"
    | .send =>
      sign "chan"
      signAt arrow "<-"
    space .blank
    pen.plain value
  | _ => pure ()

/-- Whether an expression stands in parentheses. -/
def isGroup : Expr → Bool
  | .node _ (.group _ _) => true
  | _ => false

/-- Writes an expression among operators that bind as strong as `prec`, `depth` operations deep. -/
def anyExpr (x : Expr) (prec depth : Nat) : Writing Unit := do
  goTo x.start
  match x.form with
  | .name text => word text
  | .literal kind text => literalText kind text
  | .binary left opPos op right => binary pen x left opPos op right prec depth
  | .pair key colon value =>
    pen.plain key
    signAt colon ":"
    space .blank
    pen.plain value
  | .star target =>
    let parens := unaryPrecedence < prec
    if parens then sign "("
    sign "*"
    pen.plain target
    if parens then sign ")"
  | .unary op operand =>
    if unaryPrecedence < prec then
      sign "("
      pen.plain x
      sign ")"
    else
      sign op
      if op == "range" then space .blank
      pen.expr operand unaryPrecedence depth
  | .function s b => function pen s b
  | .group inner closing =>
    if isGroup inner then pen.exprAt inner depth
    else
      sign "("
      pen.exprAt inner (max 1 (depth - 1))
      signAt closing ")"
  | .member base n =>
    let _ ← member pen base n depth false
  | .assertion base opening type? closing =>
    pen.expr base highestPrecedence depth
    sign "."
    signAt opening "("
    match type? with
    | some t => pen.plain t
    | none => sign "type"
    signAt closing ")"
  | .index base opening indices closing =>
    pen.expr base highestPrecedence 1
    signAt opening "["
    match indices with
    | [i] => pen.exprAt i (depth + 1)
    | _ => exprs pen opening indices (depth + 1) true false closing
    signAt closing "]"
  | .slice base opening low? high? most? closing =>
    slice pen base opening low? high? most? closing depth
  | .call f opening args dots closing => call pen f opening args dots closing depth
  | .composite type? opening elements closing =>
    composite pen type? opening elements closing depth
  | .dots element? =>
    sign "..."
    match element? with
    | some t => pen.plain t
    | none => pure ()
  | form => compound pen form

end NodeFamily.Layout.Pen
