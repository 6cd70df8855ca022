import NodeFamily.Layout.Grammar.Operation

/-!
# Reading statements

The rules for statements and blocks.
-/

namespace NodeFamily.Layout.Grammar

open Reading

variable (g : Grammar)

/-- What kinds of simple statements may stand at a place. -/
inductive SimpleMode
  | plain
  | labels
  | ranges
deriving DecidableEq, Repr

/-- The operators that assign. -/
def assignments : List String :=
  [":=", "=", "+=", "-=", "*=", "/=", "%=", "&=", "|=", "^=", "<<=", ">>=", "&^="]

/-- Reads a range after its keyword, as the value of an assignment. -/
def rangeValue : Reading Expr := do
  let start ← expect "range"
  let x ← g.value
  return .node ⟨start, x.stop⟩ (.unary "range" x)

/-- A stretch from one expression on to the end of the last of several. -/
def spanTo (start : Nat) (xs : List Expr) : Span := ⟨start, (xs.getLast?.map Expr.stop).getD start⟩

/-- Reads an assignment after its targets; `mode` says whether it may be that of a range. -/
def assignmentFrom (mode : SimpleMode) (targets : List Expr) (t : Token) (op : String) :
    Reading (Stmt × Bool) := do
  advance
  let start := (targets.head?.map Expr.start).getD t.pos
  if mode == .ranges && (op == ":=" || op == "=") && (← isAt "range") then
    let x ← rangeValue g
    return (.node ⟨start, x.stop⟩ (.assign targets t.pos op [x]), true)
  else
    let xs ← g.exprs true
    return (.node (spanTo start xs) (.assign targets t.pos op xs), false)

/-- Reads a simple statement, and tells whether it is the range of a loop. -/
def simple (mode : SimpleMode) : Reading (Stmt × Bool) := do
  let xs ← g.exprs false
  let t ← current
  match t.lexeme, xs with
  | .sign op, xs =>
    if assignments.contains op then assignmentFrom g mode xs t op
    else match xs with
      | [x] =>
        if op == ":" then
          advance
          match x.name?, mode with
          | some label, .labels =>
            let body ← g.stmt
            return (.node ⟨x.start, body.stop⟩ (.labeled label t.pos body), false)
          | _, _ => failure
        else if op == "<-" then
          advance
          let y ← g.value
          return (.node ⟨x.start, y.stop⟩ (.send x t.pos y), false)
        else if op == "++" || op == "--" then
          advance
          return (.node ⟨x.start, t.pos + 2⟩ (.step x t.pos op), false)
        else return (.node x.span (.expression x), false)
      | _ => failure
  | _, [x] => return (.node x.span (.expression x), false)
  | _, _ => failure

/-- Reads a simple statement that is no range and has no label. -/
def plainSimple : Reading Stmt := return (← simple g .plain).1

/-- The expression that a statement is, if it is one. -/
def expressionOf? : Stmt → Option Expr
  | .node _ (.expression x) => some x
  | _ => none

/-- Reads the statements of a block or a case. -/
def stmts : Reading (List Stmt) := do
  let more : Reading Bool :=
    return !(← isAtAny ["case", "default", "\x7d"]) && (← lexeme) != .finish
  whileMore more g.stmt (← fuel)

/-- Reads a block. -/
def anyBlock : Reading Block := do
  let opening ← expect "\x7b"
  let body ← stmts g
  let closing ← expect "\x7d"
  return .mk opening body closing

/-- Reads a statement that runs a call beside or after the function. -/
def spawn (keyword : String) : Reading Stmt := do
  let start ← expect keyword
  let x ← g.value
  let _ ← finish
  match x.form with
  | .call _ _ _ _ _ => return .node ⟨start, x.stop⟩ (.spawn keyword x)
  | _ => failure

/-- Reads a return from a function. -/
def returns : Reading Stmt := do
  let start ← expect "return"
  let xs ← if (← isAtSemicolon) || (← isAt "\x7d") then pure [] else g.exprs true
  let _ ← finish
  let stop := (xs.getLast?.map Expr.stop).getD (start + 6)
  return .node ⟨start, stop⟩ (.returns xs)

/-- Reads a jump. -/
def branch (keyword : String) : Reading Stmt := do
  let start ← expect keyword
  let label? ←
    if keyword == "goto" || ((keyword == "continue" || keyword == "break") && (← isAtName)) then
      pure (some (← name))
    else pure none
  let _ ← finish
  let stop := (label?.map Name.stop).getD (start + keyword.length)
  return .node ⟨start, stop⟩ (.branch keyword label?)

/-- Reads the head of a conditional statement. -/
def condition : Reading (Option Stmt × Expr) := do
  if ← isAt "\x7b" then failure
  let (init?, cond?) ← inHead do
    let first? ← if ← isAtSemicolon then pure none else pure (some (← plainSimple g))
    if ← isAt "\x7b" then return (none, first?)
    else if ← isAtSemicolon then
      advance
      if ← isAt "\x7b" then return (first?, none) else return (first?, some (← plainSimple g))
    else failure
  match cond?.bind expressionOf? with
  | some x => return (init?, x)
  | none => failure

/-- Reads a conditional statement. -/
def conditional : Reading Stmt := do
  let start ← expect "if"
  let (init?, cond) ← condition g
  let body ← g.block
  let stop := body.closing + 1
  if ← isAt "else" then
    advance
    let other ←
      if ← isAt "if" then g.stmt
      else
        let b ← g.block
        let _ ← finish
        pure (.node ⟨b.opening, b.closing + 1⟩ (.block b))
    return .node ⟨start, other.stop⟩ (.ifElse init? (some cond) body (some other))
  else
    let _ ← finish
    return .node ⟨start, stop⟩ (.ifElse init? (some cond) body none)

/-- The end of a case after its statements. -/
def caseStop (colon : Nat) (body : List Stmt) : Nat :=
  (body.getLast?.map Stmt.stop).getD (colon + 1)

/-- Reads a case of a switch. -/
def switchCase : Reading Stmt := do
  let start := (← current).pos
  let values ←
    if ← isAt "case" then
      advance
      g.exprs true
    else
      let _ ← expect "default"
      pure []
  let colon ← expect ":"
  let body ← stmts g
  return .node ⟨start, caseStop colon body⟩ (.caseOf values colon body)

/-- Whether an expression asks for the type of a value. -/
def asksType : Expr → Bool
  | .node _ (.assertion _ _ none _) => true
  | _ => false

/-- Whether a statement makes a switch one on types. Nothing when it assigns where it has to
define. -/
def isTypeGuard? : Stmt → Option Bool
  | .node _ (.expression x) => some (asksType x)
  | .node _ (.assign [_] _ op [x]) =>
    if !asksType x then some false
    else if op == ":=" then some true
    else if op == "=" then none
    else some false
  | _ => some false

/-- Reads a switch. -/
def switch : Reading Stmt := do
  let start ← expect "switch"
  let (init?, tag?) ←
    if ← isAt "\x7b" then pure (none, none)
    else inHead do
      let first? ← if ← isAtSemicolon then pure none else pure (some (← plainSimple g))
      if ← isAtSemicolon then
        advance
        if ← isAt "\x7b" then return (first?, none) else return (first?, some (← plainSimple g))
      else return (none, first?)
  let onTypes ← match tag? with
    | none => pure false
    | some s => match isTypeGuard? s with
      | some b => pure b
      | none => failure
  let opening ← expect "\x7b"
  let cases ← whileMore (isAtAny ["case", "default"]) (switchCase g) (← fuel)
  let closing ← expect "\x7d"
  let _ ← finish
  let body : Block := .mk opening cases closing
  let span : Span := ⟨start, closing + 1⟩
  match tag? with
  | none => return .node span (.switch init? none body)
  | some s =>
    if onTypes then return .node span (.typeSwitch init? s body)
    else match expressionOf? s with
      | some x => return .node span (.switch init? (some x) body)
      | none => failure

/-- Reads the communication of a case of a selection. -/
def communication : Reading Stmt := do
  let xs ← g.exprs false
  let t ← current
  match t.lexeme, xs with
  | .sign "<-", [x] =>
    advance
    let y ← g.value
    return .node ⟨x.start, y.stop⟩ (.send x t.pos y)
  | .sign op, x :: _ =>
    if op == "=" || op == ":=" then
      if xs.length > 2 then failure
      advance
      let y ← g.value
      return .node ⟨x.start, y.stop⟩ (.assign xs t.pos op [y])
    else if xs.length == 1 then return .node x.span (.expression x)
    else failure
  | _, _ => failure

/-- Reads a case of a selection. -/
def selectCase : Reading Stmt := do
  let start := (← current).pos
  let act? ←
    if ← isAt "case" then
      advance
      pure (some (← communication g))
    else
      let _ ← expect "default"
      pure none
  let colon ← expect ":"
  let body ← stmts g
  return .node ⟨start, caseStop colon body⟩ (.communication act? colon body)

/-- Reads a selection. -/
def select : Reading Stmt := do
  let start ← expect "select"
  let opening ← expect "\x7b"
  let cases ← whileMore (isAtAny ["case", "default"]) (selectCase g) (← fuel)
  let closing ← expect "\x7d"
  let _ ← finish
  return .node ⟨start, closing + 1⟩ (.select (.mk opening cases closing))

/-- The head of a loop. -/
inductive LoopHead
  /-- Three statements, each of which may be missing. -/
  | clauses (init? : Option Stmt) (condition? : Option Stmt) (post? : Option Stmt)
  /-- A range with the names it assigns. -/
  | range (targets : List Expr) (opPos : Nat) (op : String) (values : Expr)

/-- Reads the clauses of a loop after the first one. -/
def clausesFrom (init? : Option Stmt) : Reading LoopHead := do
  advance
  let cond? ←
    if ← isAtSemicolon then pure none
    else if ← isAt "\x7b" then failure
    else pure (some (← plainSimple g))
  let _ ← finish
  let post? ← if ← isAt "\x7b" then pure none else pure (some (← plainSimple g))
  return .clauses init? cond? post?

/-- Reads the head of a loop. -/
def loopHead : Reading LoopHead := do
  if ← isAt "\x7b" then return .clauses none none none
  inHead do
    if ← isAtSemicolon then clausesFrom g none
    else if ← isAt "range" then
      let x ← rangeValue g
      match x.form with
      | .unary _ values => return .range [] 0 "" values
      | _ => failure
    else
      let (s, ranges) ← simple g .ranges
      if ranges then
        match s.act with
        | .assign targets opPos op [.node _ (.unary _ values)] =>
          if targets.length > 2 then failure
          return .range targets opPos op values
        | _ => failure
      else if ← isAtSemicolon then clausesFrom g (some s)
      else return .clauses none (some s) none

/-- Reads a loop. -/
def loop : Reading Stmt := do
  let start ← expect "for"
  let head ← loopHead g
  let body ← g.block
  let _ ← finish
  let span : Span := ⟨start, body.closing + 1⟩
  match head with
  | .range targets opPos op values =>
    return .node span (.rangeLoop targets[0]? targets[1]? opPos op values body)
  | .clauses init? none post? => return .node span (.loop init? none post? body)
  | .clauses init? (some s) post? =>
    match expressionOf? s with
    | some x => return .node span (.loop init? (some x) post? body)
    | none => failure

/-- The signs that start a simple statement. -/
def simpleSigns : List String :=
  ["func", "(", "[", "struct", "map", "chan", "interface", "+", "-", "*", "&", "^", "<-", "!"]

/-- Reads a simple statement with what ends it. -/
def simpleStmt : Reading Stmt := do
  let (s, _) ← simple g .labels
  match s.act with
  | .labeled _ _ _ => return s
  | _ =>
    let _ ← finish
    return s

/-- The first and the last position of a declaration as those of a statement. -/
def declStmt (d : Decl) : Stmt := .node d.span (.declaration d)

/-- Reads a statement. -/
def anyStmt : Reading Stmt := do
  let t ← current
  match t.lexeme with
  | .name _ | .literal _ _ => simpleStmt g
  | .semicolon written =>
    advance
    return .node ⟨t.pos, if written then t.pos + 1 else t.pos⟩ .empty
  | .sign s =>
    if ["const", "type", "var"].contains s then return declStmt (← g.decl)
    else if simpleSigns.contains s then simpleStmt g
    else if s == "go" || s == "defer" then spawn g s
    else if s == "return" then returns g
    else if ["break", "continue", "goto", "fallthrough"].contains s then branch s
    else if s == "\x7b" then
      let b ← g.block
      let _ ← finish
      return .node ⟨b.opening, b.closing + 1⟩ (.block b)
    else if s == "if" then conditional g
    else if s == "switch" then switch g
    else if s == "select" then select g
    else if s == "for" then loop g
    else if s == "\x7d" then return .node ⟨t.pos, t.pos⟩ .empty
    else failure
  | _ => failure

end NodeFamily.Layout.Grammar
