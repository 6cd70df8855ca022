import NodeFamily.Layout.Token
import NodeFamily.Layout.Tree

/-!
# Reading tokens

A reading takes tokens from the front and may fail. The rules of the grammar refer to each other
without end, so each is written against a `Grammar`, which holds the rules one level of nesting
further down. `Grammar.ofDepth` ties the knot for a given depth.
-/

namespace NodeFamily.Layout

/-- What a reading works on. -/
structure Reader where
  /-- The tokens ahead. -/
  tokens : List Token
  /-- No fewer than the tokens ahead. -/
  count : Nat := tokens.length
  /-- How deep in brackets the reading is; negative in the head of a control statement, where a
  brace opens a block and no literal. -/
  level : Int := 0
  /-- Whether the reading is on the right of an assignment, where an equals sign is wrong. -/
  inValue : Bool := false

/-- Something read from the tokens. -/
abbrev Reading := StateT Reader Option

namespace Reading

/-- The token at the front. -/
def current : Reading Token := return (← get).tokens.headD ⟨.finish, 0, false, []⟩

/-- The element at the front. -/
def lexeme : Reading Lexeme := return (← current).lexeme

/-- Steps behind the token at the front. -/
def advance : Reading Unit :=
  modify fun r => { r with tokens := r.tokens.drop 1, count := r.count - 1 }

/-- Whether a keyword or an operator stands at the front. -/
def isAt (s : String) : Reading Bool := return (← lexeme) == .sign s

/-- Whether one of several keywords or operators stands at the front. -/
def isAtAny (ss : List String) : Reading Bool :=
  return match ← lexeme with
    | .sign s => ss.contains s
    | _ => false

/-- Whether a semicolon stands at the front. -/
def isAtSemicolon : Reading Bool :=
  return match ← lexeme with
    | .semicolon _ => true
    | _ => false

/-- Whether a name stands at the front. -/
def isAtName : Reading Bool :=
  return match ← lexeme with
    | .name _ => true
    | _ => false

/-- Reads a keyword or an operator and gives its position. -/
def expect (s : String) : Reading Nat := do
  let t ← current
  if t.lexeme == .sign s then
    advance
    return t.pos
  else failure

/-- Reads a name. -/
def name : Reading Name := do
  let t ← current
  match t.lexeme with
  | .name text =>
    advance
    return ⟨t.pos, text⟩
  | _ => failure

/-- Reads the end of a statement, which needs no semicolon before what closes a list, and gives the
comments after it on its line. -/
def finish : Reading (List Comment) := do
  let t ← current
  match t.lexeme with
  | .semicolon true =>
    advance
    return (← current).aside
  | .semicolon false =>
    advance
    return t.aside
  | .sign s => if s == ")" || s == "\x7d" then return [] else failure
  | _ => failure

/-- Reads in brackets. -/
def deeper (x : Reading α) : Reading α := do
  modify fun r => { r with level := r.level + 1 }
  let a ← x
  modify fun r => { r with level := r.level - 1 }
  return a

/-- Reads in the head of a control statement. -/
def inHead (x : Reading α) : Reading α := do
  let level := (← get).level
  modify fun r => { r with level := -1 }
  let a ← x
  modify fun r => { r with level }
  return a

/-- Reads on the right of an assignment or outside of one. -/
def asValue (inValue : Bool) (x : Reading α) : Reading α := do
  let before := (← get).inValue
  modify fun r => { r with inValue }
  let a ← x
  modify fun r => { r with inValue := before }
  return a

/-- Reads items with commas between them up to a closing sign, with or without a comma before it. -/
def upTo (closing : String) (item : Reading α) : (fuel : Nat) → Reading (List α)
  | 0 => failure
  | fuel + 1 => do
    if ← isAt closing then return []
    let a ← item
    if ← isAt "," then
      advance
      return a :: (← upTo closing item fuel)
    else if ← isAt closing then return [a]
    else failure

/-- Reads one or more items with commas between them. -/
def series (item : Reading α) : (fuel : Nat) → Reading (List α)
  | 0 => failure
  | fuel + 1 => do
    let a ← item
    if ← isAt "," then
      advance
      return a :: (← series item fuel)
    else return [a]

/-- Reads items as long as `more` says so. -/
def whileMore (more : Reading Bool) (item : Reading α) : (fuel : Nat) → Reading (List α)
  | 0 => failure
  | fuel + 1 => do
    if ← more then
      let a ← item
      return a :: (← whileMore more item fuel)
    else return []

/-- Changes a value by readings as long as there is one. -/
def iterate (step : α → Reading (Option α)) : (fuel : Nat) → α → Reading α
  | 0, _ => failure
  | fuel + 1, a => do
    match ← step a with
    | some b => iterate step fuel b
    | none => return a

/-- As many steps as there are tokens ahead, and one. -/
def fuel : Reading Nat := return (← get).count + 1

end Reading

/-- The rules of the grammar that others refer to. -/
structure Grammar where
  /-- A type, if one stands at the front. -/
  type? : Reading (Option Expr)
  /-- An expression of operators that bind at least as strong as given, from its first operand if
  that is read already. -/
  binary : Option Expr → Nat → Reading Expr
  /-- An operand with the operators before it. -/
  unary : Reading Expr
  /-- The elements of a composite literal in their braces. -/
  elements : Option Expr → Reading Expr
  /-- A block. -/
  block : Reading Block
  /-- A statement. -/
  stmt : Reading Stmt
  /-- A declaration. -/
  decl : Reading Decl

namespace Grammar

/-- The grammar that reads nothing. -/
def refusing : Grammar :=
  ⟨failure, fun _ _ => failure, failure, fun _ => failure, failure, failure, failure⟩

variable (g : Grammar)

/-- Reads a type. -/
def type : Reading Expr := do
  match ← g.type? with
  | some t => return t
  | none => failure

/-- Reads an expression. -/
def expr : Reading Expr := g.binary none 1

/-- Reads an expression on the right of an assignment. -/
def value : Reading Expr := Reading.asValue true g.expr

/-- Reads expressions with commas between them. -/
def exprs (inValue : Bool) : Reading (List Expr) := do
  Reading.asValue inValue (Reading.series g.expr (← Reading.fuel))

end Grammar

end NodeFamily.Layout
