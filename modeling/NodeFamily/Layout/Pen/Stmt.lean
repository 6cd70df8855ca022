import NodeFamily.Layout.Pen.Expr

/-!
# Writing statements

Each statement stands on lines of its own, and control statements have their heads on one line.
-/

namespace NodeFamily.Layout.Pen

open Writing

variable (pen : Pen)

/-- Whether an expression is a name or a member of one. -/
def isTypeName : Expr → Bool
  | .node _ (.name _) => true
  | .node _ (.member base _) => isTypeName base
  | _ => false

mutual

/-- Whether a composite literal of a named type stands in an expression outside of parentheses, so
that its brace could be taken for that of a block. -/
def hasBareLiteral : Expr → Bool
  | .node _ form => formHasBareLiteral form

/-- Whether such a literal stands in what an expression is made of. -/
def formHasBareLiteral : Form → Bool
  | .composite (some t) _ _ _ => isTypeName t
  | .member base _ => hasBareLiteral base
  | .index base _ indices _ => hasBareLiteral base || anyHasBareLiteral indices
  | .slice base _ low? high? most? _ =>
    hasBareLiteral base || someHasBareLiteral low? || someHasBareLiteral high? ||
      someHasBareLiteral most?
  | .assertion base _ type? _ => hasBareLiteral base || someHasBareLiteral type?
  | .call f _ args _ _ => hasBareLiteral f || anyHasBareLiteral args
  | .star x => hasBareLiteral x
  | .unary _ x => hasBareLiteral x
  | .binary left _ _ right => hasBareLiteral left || hasBareLiteral right
  | .pair key _ value => hasBareLiteral key || hasBareLiteral value
  | .array length? element => someHasBareLiteral length? || hasBareLiteral element
  | .dictionary key value => hasBareLiteral key || hasBareLiteral value
  | .channel _ _ value => hasBareLiteral value
  | _ => false

/-- Whether such a literal stands in one of several expressions. -/
def anyHasBareLiteral : List Expr → Bool
  | [] => false
  | x :: rest => hasBareLiteral x || anyHasBareLiteral rest

/-- Whether such a literal stands in an expression that may be missing. -/
def someHasBareLiteral : Option Expr → Bool
  | none => false
  | some x => hasBareLiteral x

end

/-- An expression without the parentheses around it, as far as they can be left out before a
block. -/
def withoutParens : Expr → Expr
  | .node span (.group inner closing) =>
    if hasBareLiteral inner then .node span (.group inner closing) else withoutParens inner
  | x => x

/-- Writes the head of a control statement. -/
def head (isLoop : Bool) (init? : Option Stmt) (condition? : Option Expr) (post? : Option Stmt) :
    Writing Unit := do
  space .blank
  if init?.isNone && post?.isNone then
    match condition? with
    | some x =>
      pen.plain (withoutParens x)
      space .blank
    | none => pure ()
  else
    match init? with
    | some s => pen.stmt s false
    | none => pure ()
    sign ";"
    space .blank
    match condition? with
    | some x => pen.plain (withoutParens x)
    | none => pure ()
    if isLoop then
      sign ";"
      space .blank
      match post? with
      | some s =>
        pen.stmt s false
        space .blank
      | none => pure ()
    else if condition?.isSome then space .blank

/-- Whether results are indented from the first one on: when one does not start on the line on which
the one before ends, or when several are on several lines. `line` is the line on which the one
before ends, and `count` the number of results on several lines. -/
def indentsFrom (t : LineTable) : (line count : Nat) → List Expr → Bool
  | _, count, [] => count > 1
  | line, count, x :: rest =>
    let first := t.line x.start
    let last := t.line x.stop
    line < first || indentsFrom t last (if first < last then count + 1 else count) rest

/-- Whether results are indented from the first one on. -/
def indents (t : LineTable) (xs : List Expr) : Bool :=
  match xs with
  | first :: _ :: _ =>
    let start := t.line first.start
    let stop := t.line ((xs.getLast?.map Expr.stop).getD 0)
    0 < start && start < stop && indentsFrom t start 0 xs
  | _ => false

/-- Writes a statement with a label. -/
def labeled (label : Name) (colon : Nat) (s : Stmt) (closes : Bool) : Writing Unit := do
  space .unindent
  pen.plain (.ofName label)
  signAt colon ":"
  space .indent
  if s.isEmpty && !closes then
    space .newline
    signAt s.start ";"
  else
    if !s.isEmpty then
      let _ ← breakTo (← lineOf s.start) 1 .none true
    pen.stmt s closes

/-- Writes a return from a function. -/
def returns (xs : List Expr) : Writing Unit := do
  sign "return"
  if !xs.isEmpty then
    space .blank
    if indents (← get).table xs then
      space .indent
      exprs pen 0 xs 1 false true 0
      space .unindent
    else exprs pen 0 xs 1 false false 0

/-- Writes a loop over a range. -/
def rangeLoop (key? value? : Option Expr) (opPos : Nat) (op : String) (values : Expr) (b : Block) :
    Writing Unit := do
  sign "for"
  space .blank
  match key? with
  | some key =>
    pen.plain key
    match value? with
    | some value =>
      signAt value.start ","
      space .blank
      pen.plain value
    | none => pure ()
    space .blank
    signAt opPos op
    space .blank
  | none => pure ()
  sign "range"
  space .blank
  pen.plain (withoutParens values)
  space .blank
  block pen b false

/-- Writes a conditional statement. -/
def conditional (init? : Option Stmt) (condition? : Option Expr) (b : Block) (else? : Option Stmt)
    (closes : Bool) : Writing Unit := do
  sign "if"
  head pen false init? condition? none
  block pen b false
  match else? with
  | some s =>
    space .blank
    sign "else"
    space .blank
    pen.stmt s closes
  | none => pure ()

/-- Writes a switch on types. -/
def typeSwitch (init? : Option Stmt) (guard : Stmt) (b : Block) : Writing Unit := do
  sign "switch"
  match init? with
  | some s =>
    space .blank
    pen.stmt s false
    sign ";"
  | none => pure ()
  space .blank
  pen.stmt guard false
  space .blank
  block pen b true

/-- Writes a selection. -/
def select (b : Block) : Writing Unit := do
  sign "select"
  space .blank
  let p ← get
  if b.stmts.isEmpty && !p.hasCommentBefore (p.table.place b.closing) then
    signAt b.opening "\x7b"
    signAt b.closing "\x7d"
  else block pen b true

/-- Writes an assignment. -/
def assignment (start : Nat) (targets : List Expr) (opPos : Nat) (op : String)
    (values : List Expr) : Writing Unit := do
  let depth := if targets.length > 1 && values.length > 1 then 2 else 1
  exprs pen start targets depth false false opPos
  space .blank
  signAt opPos op
  space .blank
  exprs pen opPos values depth false false 0

/-- Writes a statement; `closes` says whether a closing brace follows. -/
def anyStmt (s : Stmt) (closes : Bool) : Writing Unit := do
  goTo s.start
  match s.act with
  | .declaration d => pen.decl d
  | .empty => pure ()
  | .labeled label colon body => labeled pen label colon body closes
  | .expression x => pen.exprAt x 1
  | .send channel arrow value =>
    pen.exprAt channel 1
    space .blank
    signAt arrow "<-"
    space .blank
    pen.exprAt value 1
  | .step target opPos op =>
    pen.exprAt target 2
    signAt opPos op
  | .assign targets opPos op values => assignment pen s.start targets opPos op values
  | .spawn keyword x =>
    sign keyword
    space .blank
    pen.plain x
  | .returns xs => returns pen xs
  | .branch keyword label? =>
    sign keyword
    match label? with
    | some n =>
      space .blank
      pen.plain (.ofName n)
    | none => pure ()
  | .block b => block pen b false
  | .ifElse init? condition? b else? => conditional pen init? condition? b else? closes
  | .caseOf values colon body =>
    if values.isEmpty then sign "default"
    else
      sign "case"
      space .blank
      exprs pen s.start values 1 false false colon
    signAt colon ":"
    stmts pen body false closes
  | .communication act? colon body =>
    match act? with
    | some a =>
      sign "case"
      space .blank
      pen.stmt a false
    | none => sign "default"
    signAt colon ":"
    stmts pen body false closes
  | .switch init? tag? b =>
    sign "switch"
    head pen false init? tag? none
    block pen b true
  | .typeSwitch init? guard b => typeSwitch pen init? guard b
  | .select b => select pen b
  | .loop init? condition? post? b =>
    sign "for"
    head pen true init? condition? post?
    block pen b false
  | .rangeLoop key? value? opPos op values b => rangeLoop pen key? value? opPos op values b

end NodeFamily.Layout.Pen
