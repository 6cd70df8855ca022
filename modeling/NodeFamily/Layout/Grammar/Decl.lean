import NodeFamily.Layout.Grammar.Act

/-!
# Reading declarations and files

The rules for declarations, and `SourceTree.ofTokens?`, which reads a whole file.
-/

namespace NodeFamily.Layout

namespace Grammar

open Reading

variable (g : Grammar)

/-- The text of comments, by which imports are told apart. -/
def textOf (cs : List Comment) : String := String.join (cs.map Comment.text)

/-- Reads an import. -/
def pathSpec : Reading Spec := do
  let t ← current
  let name? ← match t.lexeme with
    | .name _ => pure (some (← name))
    | .sign "." =>
      advance
      pure (some ⟨t.pos, "."⟩)
    | _ => pure none
  let t ← current
  match t.lexeme with
  | .literal .text text =>
    advance
    let comments ← finish
    return .path name? ⟨t.pos, .text, text⟩ (textOf comments) 0
  | _ => failure

/-- Reads the values after an equals sign, if there is one. -/
def initialValues : Reading (List Expr) := do
  if ← isAt "=" then
    advance
    g.exprs true
  else return []

/-- Reads constants or variables. -/
def bindingSpec (keyword : String) : Reading Spec := do
  let names ← series name (← fuel)
  let (type?, values) ←
    if keyword == "const" then
      if (← isAtSemicolon) || (← isAt ")") then pure (none, [])
      else
        let type? ← g.type?
        pure (type?, ← initialValues g)
    else
      let type? ← if ← isAt "=" then pure none else pure (some (← g.type))
      pure (type?, ← initialValues g)
  let comments ← finish
  return .bindings names type? values (!comments.isEmpty)

/-- A type parameter, taken from an expression that starts as one: a name alone, or a name and its
type, which the expression takes for the operands of one operation. What could be an expression is
taken for a parameter only if `forced`. -/
def splitParam? (forced : Bool) : Expr → Option (Name × Option Expr)
  | .node span (.name text) => some (⟨span.start, text⟩, none)
  | .node _ (.binary left opPos "*" right) =>
    match left.name? with
    | some n =>
      if forced || right.isTypeElement then
        some (n, some (.node ⟨opPos, right.stop⟩ (.star right)))
      else none
    | none => none
  | .node span (.binary left opPos "|" right) =>
    match splitParam? (forced || right.isTypeElement) left with
    | some (n, some t) => some (n, some (.node ⟨t.start, span.stop⟩ (.binary t opPos "|" right)))
    | _ => none
  | .node _ (.call function opening [arg] 0 closing) =>
    match function.name? with
    | some n =>
      if forced || arg.isTypeElement then
        some (n, some (.node ⟨opening, closing + 1⟩ (.group arg closing)))
      else none
    | none => none
  | _ => none

/-- Reads a generic type after its first type parameter. -/
def genericFrom (n : Name) (opening : Nat) (param : Param) : Reading Spec := do
  let fields ← paramList g (some param) "]" false
  let closing ← expect "]"
  let t ← current
  if t.lexeme == .sign "=" then advance
  let assign := if t.lexeme == .sign "=" then t.pos else 0
  return .type n (some (.mk opening fields closing)) assign (← g.type)

/-- Reads what follows the name of a type and a bracket: type parameters or an array type. -/
def bracketedType (n : Name) : Reading Spec := do
  let opening ← expect "["
  if ← isAtName then
    let first ← name
    let x ←
      if ← isAt "[" then pure (.ofName first)
      else deeper do g.binary (some (← primaryFrom g (.ofName first))) 1
    match splitParam? (← isAt ",") x with
    | some (p, some t) => genericFrom g n opening (some p, some (← typeSetFrom g t))
    | some (p, none) =>
      if ← isAt "]" then return .type n none 0 (← arrayType g opening (some x))
      else genericFrom g n opening (← paramFrom g true p)
    | none => return .type n none 0 (← arrayType g opening (some x))
  else return .type n none 0 (← arrayType g opening none)

/-- Reads the declaration of a type. -/
def typeSpec : Reading Spec := do
  let n ← name
  let spec ←
    if ← isAt "[" then bracketedType g n
    else
      let t ← current
      if t.lexeme == .sign "=" then
        advance
        pure (.type n none t.pos (← g.type))
      else pure (.type n none 0 (← g.type))
  let _ ← finish
  return spec

/-- Reads a general declaration of items. -/
def general (keyword : String) (spec : Reading Spec) : Reading Decl := do
  let documented := (← current).documented
  let start ← expect keyword
  let t ← current
  if t.lexeme == .sign "(" then
    advance
    let more : Reading Bool := return !(← isAt ")")
    let specs ← whileMore more spec (← fuel)
    let closing ← expect ")"
    let _ ← finish
    return .general documented ⟨start, closing + 1⟩ keyword t.pos specs closing
  else
    let s ← spec
    return .general documented ⟨start, s.stop⟩ keyword 0 [s] 0

/-- Reads the type parameters of a function, if there are any. -/
def typeParams? : Reading (Option FieldList) := do
  if ← isAt "[" then
    let opening ← expect "["
    let fields ← paramList g none "]" false
    let closing ← expect "]"
    if fields.isEmpty then failure
    return some (.mk opening fields closing)
  else return none

/-- Reads a function or a method. A method has no type parameters of its own. -/
def functionDecl : Reading Decl := do
  let documented := (← current).documented
  let start ← expect "func"
  let receiver? ← if ← isAt "(" then pure (some (← params g false)) else pure none
  let n ← name
  let generic? ← typeParams? g
  if receiver?.isSome && generic?.isSome then failure
  let ps ← params g true
  let s := signatureOf start generic? ps (← results? g)
  if ← isAt "\x7b" then
    let body ← g.block
    let _ ← finish
    return .function documented ⟨start, body.closing + 1⟩ receiver? n s (some body)
  else
    let _ ← finish
    if ← isAt "\x7b" then failure
    return .function documented ⟨start, s.span.stop⟩ receiver? n s none

/-- Reads a declaration. -/
def anyDecl : Reading Decl := do
  match ← lexeme with
  | .sign "import" => general "import" pathSpec
  | .sign "const" => general "const" (bindingSpec g "const")
  | .sign "var" => general "var" (bindingSpec g "var")
  | .sign "type" => general "type" (typeSpec g)
  | .sign "func" => functionDecl g
  | _ => failure

/-- The rules one level of nesting above given ones. -/
def above : Grammar where
  type? := anyType? g
  binary := anyBinary g
  unary := anyUnary g
  elements := compositeFrom g
  block := anyBlock g
  stmt := anyStmt g
  decl := anyDecl g

/-- The grammar of sources nested at most so deep. -/
def ofDepth : Nat → Grammar
  | 0 => refusing
  | depth + 1 => above (ofDepth depth)

/-- Reads the declarations of a file. Imports come before all others. -/
def decls : (fuel : Nat) → (imports : Bool) → Reading (List Decl)
  | 0, _ => failure
  | fuel + 1, imports => do
    if (← lexeme) == .finish then return []
    let isImport ← isAt "import"
    if isImport && !imports then failure
    let d ← anyDecl g
    return d :: (← decls fuel isImport)

end Grammar

/-- A file as it is structured. -/
structure SourceTree where
  /-- The position of the package clause. -/
  start : Nat
  /-- The package. -/
  name : Name
  /-- The declarations. -/
  decls : List Decl

namespace SourceTree

/-- Reads a file. -/
def read (g : Grammar) : Reading SourceTree := do
  let start ← Reading.expect "package"
  let name ← Reading.name
  let _ ← Reading.finish
  return ⟨start, name, ← g.decls (← Reading.fuel) true⟩

/-- The structure of a file with the given tokens. No rule goes more than a few levels down without
a token. -/
def ofTokens? (ts : List Token) : Option SourceTree :=
  (read (.ofDepth (8 * ts.length + 64)) { tokens := ts }).map Prod.fst

end SourceTree

end NodeFamily.Layout
