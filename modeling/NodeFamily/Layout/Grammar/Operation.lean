import NodeFamily.Layout.Grammar.Type

/-!
# Reading expressions

The rules for operands, for what may follow them, and for unary and binary operations.
-/

namespace NodeFamily.Layout.Grammar

open Reading

variable (g : Grammar)

/-- Reads an operand. -/
def operand : Reading Expr := do
  let t ← current
  match t.lexeme with
  | .name text =>
    advance
    return .ofName ⟨t.pos, text⟩
  | .literal kind text =>
    advance
    return .ofLiteral ⟨t.pos, kind, text⟩
  | .sign "(" =>
    advance
    let inner ← deeper g.value
    let closing ← expect ")"
    return .node ⟨t.pos, closing + 1⟩ (.group inner closing)
  | .sign "func" =>
    let s ← functionSignature g
    if ← isAt "\x7b" then
      let body ← deeper g.block
      return .node ⟨s.span.start, body.closing + 1⟩ (.function s body)
    else return .node s.span (.functionType s)
  | _ => g.type

/-- Reads a type assertion after its point. -/
def assertionFrom (x : Expr) : Reading Expr := do
  let opening ← expect "("
  let type? ←
    if ← isAt "type" then
      advance
      pure none
    else pure (some (← g.type))
  let closing ← expect ")"
  return .node ⟨x.start, closing + 1⟩ (.assertion x opening type? closing)

/-- Reads the bound of a slice after a colon, if there is one. -/
def bound? : Reading (Option Expr) := do
  let _ ← expect ":"
  if ← isAtAny [":", "]"] then return none else return some (← g.value)

/-- Reads the bounds of a slice after the lower one. A slice with two colons needs both its other
bounds. -/
def sliceFrom (x : Expr) (opening : Nat) (low? : Option Expr) : Reading Expr := do
  let high? ← bound? g
  let three ← isAt ":"
  let most? ← if three then bound? g else pure none
  if three && (high?.isNone || most?.isNone) then failure
  let closing ← expect "]"
  return .node ⟨x.start, closing + 1⟩ (.slice x opening low? high? most? closing)

/-- Reads the types after the first argument of an instance, each after a comma. The last comma may
have none after it. -/
def instanceTypes : (fuel : Nat) → Reading (List Expr)
  | 0 => failure
  | fuel + 1 => do
    if ← isAt "," then
      advance
      if ← isAt "]" then return []
      let t ← g.type
      return t :: (← instanceTypes fuel)
    else return []

/-- Reads an index, a slice or type arguments after an expression. -/
def bracketsFrom (x : Expr) : Reading Expr := do
  let opening ← expect "["
  let level := (← get).level
  modify fun r => { r with level := level + 1 }
  let y ←
    if ← isAt ":" then sliceFrom g x opening none
    else
      let first ← g.value
      if ← isAt ":" then sliceFrom g x opening (some first)
      else
        let more ← instanceTypes g (← fuel)
        let closing ← expect "]"
        pure (indexed x opening (first :: more) closing)
  modify fun r => { r with level }
  return y

/-- Reads the arguments of a call. Dots may follow the last one. -/
def arguments : (fuel : Nat) → Reading (List Expr × Nat)
  | 0 => failure
  | fuel + 1 => do
    if ← isAt ")" then return ([], 0)
    let x ← g.value
    let t ← current
    let dots := if t.lexeme == .sign "..." then t.pos else 0
    if dots > 0 then advance
    if ← isAt "," then
      advance
      if dots > 0 then return ([x], dots)
      let (xs, dots) ← arguments fuel
      return (x :: xs, dots)
    else if ← isAt ")" then return ([x], dots)
    else failure

/-- Reads a call of an expression. -/
def callFrom (x : Expr) : Reading Expr := do
  let opening ← expect "("
  let (args, dots) ← deeper (do arguments g (← fuel))
  let closing ← expect ")"
  return .node ⟨x.start, closing + 1⟩ (.call x opening args dots closing)

/-- Whether a brace after an expression opens a composite literal of it. After a name it does not in
the head of a control statement. -/
def opensLiteral (level : Int) (x : Expr) : Bool :=
  match x.form with
  | .name _ | .member _ _ | .index _ _ _ _ => level ≥ 0
  | .array _ _ | .struct _ | .dictionary _ _ => true
  | _ => false

/-- Reads what may follow an operand once, if anything does. -/
def suffix? (x : Expr) : Reading (Option Expr) := do
  match ← lexeme with
  | .sign "." =>
    advance
    if ← isAtName then return some (memberOf x (← name))
    else return some (← assertionFrom g x)
  | .sign "[" => return some (← bracketsFrom g x)
  | .sign "(" => return some (← callFrom g x)
  | .sign "\x7b" =>
    let bare := x.ungrouped
    if !opensLiteral (← get).level bare then return none
    else match x.form with
      | .group _ _ => failure
      | _ => return some (← g.elements (some x))
  | _ => return none

/-- Reads all that follows an operand. -/
def primaryFrom (x : Expr) : Reading Expr := do
  iterate (suffix? g) (← fuel) x

/-- Reads a value in a composite literal. -/
def elementValue : Reading Expr := do
  if ← isAt "\x7b" then g.elements none else g.expr

/-- Reads an element of a composite literal. -/
def element : Reading Expr := do
  let x ← elementValue g
  let t ← current
  if t.lexeme == .sign ":" then
    advance
    let y ← elementValue g
    return .node ⟨x.start, y.stop⟩ (.pair x t.pos y)
  else return x

/-- Reads the elements of a composite literal in their braces. -/
def compositeFrom (type? : Option Expr) : Reading Expr := do
  let opening ← expect "\x7b"
  let xs ← deeper (do upTo "\x7d" (element g) (← fuel))
  let closing ← expect "\x7d"
  return .node ⟨(type?.map Expr.start).getD opening, closing + 1⟩
    (.composite type? opening xs closing)

/-- Gives the arrow at `arrow` to the channel type after it, which hands on its own arrow to the
type of its values. Nothing when that leaves an arrow without a channel type. -/
def receiving? (arrow : Nat) : Expr → Option Expr
  | .node span (.channel direction own value) =>
    match direction with
    | .both => some (.node ⟨arrow, span.stop⟩ (.channel .receive arrow value))
    | .send =>
      (receiving? own value).map fun v => .node ⟨arrow, span.stop⟩ (.channel .receive arrow v)
    | .receive => none
  | _ => none

/-- Whether an expression is a channel type. -/
def isChannel : Expr → Bool
  | .node _ (.channel _ _ _) => true
  | _ => false

/-- Reads an operand with the operators before it. -/
def anyUnary : Reading Expr := do
  let t ← current
  match t.lexeme with
  | .sign "<-" =>
    advance
    let x ← g.unary
    if isChannel x then
      match receiving? t.pos x with
      | some y => return y
      | none => failure
    else return .node ⟨t.pos, x.stop⟩ (.unary "<-" x)
  | .sign "*" =>
    advance
    let x ← g.unary
    return .node ⟨t.pos, x.stop⟩ (.star x)
  | .sign s =>
    if ["+", "-", "!", "^", "&", "~"].contains s then
      advance
      let x ← g.unary
      return .node ⟨t.pos, x.stop⟩ (.unary s x)
    else primaryFrom g (← operand g)
  | _ => primaryFrom g (← operand g)

/-- Reads an operator that binds at least as strong as given and its right operand, if there is
one. -/
def operation? (least : Nat) (x : Expr) : Reading (Option Expr) := do
  let t ← current
  match t.lexeme with
  | .sign op =>
    if op == "=" && (← get).inValue && least ≤ 3 then failure
    let strength := precedence op
    if strength < least then return none
    advance
    let y ← g.binary none (strength + 1)
    return some (.node ⟨x.start, y.stop⟩ (.binary x t.pos op y))
  | _ => return none

/-- Reads an expression of operators that bind at least as strong as given, from its first operand
if that is read already. -/
def anyBinary (first? : Option Expr) (least : Nat) : Reading Expr := do
  let x ← match first? with
    | some x => pure x
    | none => g.unary
  iterate (operation? g least) (← fuel) x

end NodeFamily.Layout.Grammar
