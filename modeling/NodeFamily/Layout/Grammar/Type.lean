import NodeFamily.Layout.Grammar.Basic

/-!
# Reading types

The rules for types: names with type arguments, arrays, pointers, structs, functions, interfaces,
dictionaries and channels, and the parameter lists that functions share with declarations.
-/

namespace NodeFamily.Layout.Grammar

open Reading

variable (g : Grammar)

/-- An expression with an index or type arguments. -/
def indexed (base : Expr) (opening : Nat) (indices : List Expr) (closing : Nat) : Expr :=
  .node ⟨base.start, closing + 1⟩ (.index base opening indices closing)

/-- A member of an expression. -/
def memberOf (base : Expr) (n : Name) : Expr := .node ⟨base.start, n.stop⟩ (.member base n)

/-- Reads the name of a type with the package before it, from its first name on. -/
def typeNameFrom (first : Name) : Reading Expr := do
  if ← isAt "." then
    advance
    return memberOf (.ofName first) (← name)
  else return .ofName first

/-- Reads type arguments after a type. -/
def typeArguments (base : Expr) : Reading Expr := do
  let opening ← expect "["
  let args ← deeper (do upTo "]" g.type (← fuel))
  let closing ← expect "]"
  if args.isEmpty then failure
  return indexed base opening args closing

/-- Reads a type by its name, from its first name on. -/
def namedTypeFrom (first : Name) : Reading Expr := do
  let base ← typeNameFrom first
  if ← isAt "[" then typeArguments g base else return base

/-- Reads an array type whose opening bracket is read, and its length too if it is given. -/
def arrayType (opening : Nat) (length? : Option Expr) : Reading Expr := do
  let length? ← match length? with
    | some n => pure (some n)
    | none => deeper do
      let t ← current
      if t.lexeme == .sign "..." then
        advance
        return some (.node ⟨t.pos, t.pos + 3⟩ (.dots none))
      else if t.lexeme == .sign "]" then return none
      else return some (← g.value)
  let _ ← expect "]"
  let element ← g.type
  return .node ⟨opening, element.stop⟩ (.array length? element)

/-- Reads the indices in the brackets after a name. -/
def indices : (fuel : Nat) → Reading (List Expr × Bool)
  | 0 => failure
  | fuel + 1 => do
    let x ← g.value
    if ← isAt "," then
      advance
      if ← isAt "]" then return ([x], true)
      let (xs, trailing) ← indices fuel
      return (x :: xs, trailing)
    else return ([x], false)

/-- Reads what follows a name with a bracket after it: the array type of a field with that name, or
type arguments, in which case the name is that of a type. -/
def arrayOrArguments (n : Name) : Reading (Option Name × Expr) := do
  let opening ← expect "["
  let (args, trailing) ← if ← isAt "]" then pure ([], false) else deeper (do indices g (← fuel))
  let closing ← expect "]"
  match args with
  | [] =>
    let element ← g.type
    return (some n, .node ⟨opening, element.stop⟩ (.array none element))
  | [length] =>
    match ← g.type? with
    | some element =>
      if trailing then failure
      return (some n, .node ⟨opening, element.stop⟩ (.array (some length) element))
    | none => return (none, indexed (.ofName n) opening args closing)
  | _ => return (none, indexed (.ofName n) opening args closing)

/-- Reads a field of a struct. -/
def field : Reading Field := do
  let t ← current
  let (names, type) ← match t.lexeme with
    | .name _ =>
      let first ← name
      match ← lexeme with
      | .sign "." => pure ([], ← namedTypeFrom g first)
      | .sign "\x7d" | .semicolon _ | .literal .text _ => pure ([], .ofName first)
      | .sign "," =>
        advance
        let more ← series name (← fuel)
        pure (first :: more, ← g.type)
      | .sign "[" =>
        let (n?, type) ← arrayOrArguments g first
        pure (n?.toList, type)
      | _ => pure ([first], ← g.type)
    | .sign "*" =>
      advance
      let target ← namedTypeFrom g (← name)
      pure ([], .node ⟨t.pos, target.stop⟩ (.star target))
    | _ => failure
  let t ← current
  let tag? ← match t.lexeme with
    | .literal .text text =>
      advance
      pure (some ⟨t.pos, .text, text⟩)
    | _ => pure none
  let comments ← finish
  return .mk names type tag? (!comments.isEmpty)

/-- Reads a struct type. -/
def structType : Reading Expr := do
  let start ← expect "struct"
  let opening ← expect "\x7b"
  let more : Reading Bool := do return (← isAtName) || (← isAt "*")
  let fields ← whileMore more (field g) (← fuel)
  let closing ← expect "\x7d"
  return .node ⟨start, closing + 1⟩ (.struct (.mk opening fields closing))

/-- Reads one term of a type set. -/
def typeTerm : Reading Expr := do
  let t ← current
  if t.lexeme == .sign "~" then
    advance
    let x ← g.type
    return .node ⟨t.pos, x.stop⟩ (.unary "~" x)
  else g.type

/-- Reads the terms of a type set after its first one. -/
def typeSetFrom (first : Expr) : Reading Expr := do
  let step (x : Expr) : Reading (Option Expr) := do
    let t ← current
    if t.lexeme == .sign "|" then
      advance
      let y ← typeTerm g
      return some (.node ⟨x.start, y.stop⟩ (.binary x t.pos "|" y))
    else return none
  iterate step (← fuel) first

/-- A parameter as it is read: a name, a type or both. -/
abbrev Param := Option Name × Option Expr

/-- The signs that start a type after a name. -/
def typeSigns : List String :=
  ["*", "<-", "func", "chan", "map", "struct", "interface", "("]

/-- Reads dots and the type after them. -/
def dotsType : Reading Expr := do
  let start ← expect "..."
  let element ← g.type
  return .node ⟨start, element.stop⟩ (.dots (some element))

/-- Reads what may follow the type of a type parameter: more terms of a type set. -/
def paramEnd (sets : Bool) (p : Param) : Reading Param := do
  match p.2 with
  | some t => if sets then return (p.1, some (← typeSetFrom g t)) else return p
  | none => return p

/-- Reads a parameter whose first name is read; `sets` says whether it is a type parameter. -/
def paramFrom (sets : Bool) (n : Name) : Reading Param := do
  match ← lexeme with
  | .name _ => paramEnd g sets (some n, some (← g.type))
  | .sign "[" =>
    let (n?, type) ← arrayOrArguments g n
    paramEnd g sets (n?, some type)
  | .sign "..." => return (some n, some (← dotsType g))
  | .sign "." => paramEnd g sets (none, some (← namedTypeFrom g n))
  | .sign "~" =>
    if sets then return (some n, some (← typeSetFrom g (← typeTerm g))) else return (some n, none)
  | .sign "|" =>
    if sets then return (none, some (← typeSetFrom g (.ofName n))) else return (some n, none)
  | .sign s =>
    if typeSigns.contains s then paramEnd g sets (some n, some (← g.type))
    else return (some n, none)
  | _ => return (some n, none)

/-- Reads a parameter. -/
def param (sets : Bool) : Reading Param := do
  match ← lexeme with
  | .name _ => paramFrom g sets (← name)
  | .sign "~" => if sets then return (none, some (← typeSetFrom g (← typeTerm g))) else failure
  | .sign "..." => return (none, some (← dotsType g))
  | .sign s =>
    if s == "[" || typeSigns.contains s then paramEnd g sets (none, some (← g.type)) else failure
  | _ => failure

/-- Whether a type is dots with a type. -/
def isDots : Expr → Bool
  | .node _ (.dots _) => true
  | _ => false

/-- The fields of parameters of which one at least has both a name and a type: all have names, and
names without a type share the next type. `names` holds the names that wait for one. Nothing when a
type has no name or the last name no type. -/
def shareTypes (names : List Name) : List Param → Option (List Field)
  | [] => if names.isEmpty then some [] else none
  | (some n, some t) :: rest =>
    (shareTypes [] rest).map (.mk (names ++ [n]) t none false :: ·)
  | (some n, none) :: rest => shareTypes (names ++ [n]) rest
  | (none, _) :: _ => none

/-- Whether dots stand at most before the type of the last parameter, and there only if they may. -/
def dotsFit (allowed : Bool) : List Field → Bool
  | [] => true
  | [f] => !isDots f.type || (allowed && f.names.length ≤ 1)
  | f :: rest => !isDots f.type && dotsFit allowed rest

/-- The fields that parameters make up. -/
def paramFields? (sets dots : Bool) (ps : List Param) : Option (List Field) := do
  let fields ←
    if ps.any fun p => p.1.isSome && p.2.isSome then shareTypes [] ps
    else if sets && !ps.isEmpty then none
    else some (ps.filterMap fun p =>
      (p.2.orElse fun _ => p.1.map Expr.ofName).map fun t => .mk [] t none false)
  if dotsFit dots fields then some fields else none

/-- Reads parameters after the first one, if that is read. -/
def paramList (first? : Option Param) (closing : String) (dots : Bool) : Reading (List Field) := do
  let sets := closing == "]"
  let ps ← match first? with
    | none => upTo closing (param g sets) (← fuel)
    | some p =>
      if ← isAt "," then
        advance
        pure (p :: (← upTo closing (param g sets) (← fuel)))
      else if ← isAt closing then pure [p]
      else failure
  match paramFields? sets dots ps with
  | some fields => return fields
  | none => failure

/-- Reads parameters in parentheses. -/
def params (dots : Bool) : Reading FieldList := do
  let opening ← expect "("
  let fields ← paramList g none ")" dots
  let closing ← expect ")"
  return .mk opening fields closing

/-- Reads results, if there are any. -/
def results? : Reading (Option FieldList) := do
  if ← isAt "(" then return some (← params g false)
  else match ← g.type? with
    | some t => return some (.mk 0 [.mk [] t none false] 0)
    | none => return none

/-- A signature from its parts. -/
def signatureOf (start : Nat) (typeParams? : Option FieldList) (params : FieldList)
    (results? : Option FieldList) : Signature :=
  .mk ⟨start, (results?.map FieldList.stop).getD params.stop⟩ typeParams? params results?

/-- Reads a function type. -/
def functionSignature : Reading Signature := do
  let start ← expect "func"
  let ps ← params g true
  return signatureOf start none ps (← results? g)

/-- Reads a method or an embedded type of an interface that starts with a name. -/
def method : Reading Field := do
  let first ← name
  if ← isAt "(" then
    let ps ← params g true
    let s := signatureOf ps.opening none ps (← results? g)
    let comments ← finish
    return .mk [first] (.node s.span (.functionType s)) none (!comments.isEmpty)
  else
    let base ← typeNameFrom first
    let type ←
      if !(← isAt "[") then pure base
      else if base.name?.isNone then typeArguments g base
      else
        let opening ← expect "["
        let x ← deeper g.expr
        let more ←
          if ← isAt "," then
            advance
            deeper (do upTo "]" g.type (← fuel))
          else pure []
        let closing ← expect "]"
        pure (indexed base opening (x :: more) closing)
    let type ← typeSetFrom g type
    let comments ← finish
    return .mk [] type none (!comments.isEmpty)

/-- Reads an element of an interface, if there is one. -/
def interfaceElement? : Reading (Option Field) := do
  match ← lexeme with
  | .name _ => return some (← method g)
  | .sign "~" =>
    let type ← typeSetFrom g (← typeTerm g)
    let comments ← finish
    return some (.mk [] type none (!comments.isEmpty))
  | _ =>
    match ← g.type? with
    | some t =>
      let type ← typeSetFrom g t
      let comments ← finish
      return some (.mk [] type none (!comments.isEmpty))
    | none => return none

/-- Reads the elements of an interface. -/
def interfaceElements : (fuel : Nat) → Reading (List Field)
  | 0 => failure
  | fuel + 1 => do
    match ← interfaceElement? g with
    | some f => return f :: (← interfaceElements fuel)
    | none => return []

/-- Reads an interface type. -/
def interfaceType : Reading Expr := do
  let start ← expect "interface"
  let opening ← expect "\x7b"
  let elements ← interfaceElements g (← fuel)
  let closing ← expect "\x7d"
  return .node ⟨start, closing + 1⟩ (.interface (.mk opening elements closing))

/-- Reads a dictionary type. -/
def dictionaryType : Reading Expr := do
  let start ← expect "map"
  let _ ← expect "["
  let key ← g.type
  let _ ← expect "]"
  let value ← g.type
  return .node ⟨start, value.stop⟩ (.dictionary key value)

/-- Reads a channel type. -/
def channelType : Reading Expr := do
  let start := (← current).pos
  if ← isAt "chan" then
    advance
    let t ← current
    if t.lexeme == .sign "<-" then
      advance
      let value ← g.type
      return .node ⟨start, value.stop⟩ (.channel .send t.pos value)
    else
      let value ← g.type
      return .node ⟨start, value.stop⟩ (.channel .both 0 value)
  else
    let arrow ← expect "<-"
    let _ ← expect "chan"
    let value ← g.type
    return .node ⟨start, value.stop⟩ (.channel .receive arrow value)

/-- Reads a type, if one stands at the front. -/
def anyType? : Reading (Option Expr) := do
  let t ← current
  match t.lexeme with
  | .name _ => return some (← namedTypeFrom g (← name))
  | .sign "[" =>
    advance
    return some (← arrayType g t.pos none)
  | .sign "struct" => return some (← structType g)
  | .sign "*" =>
    advance
    let target ← g.type
    return some (.node ⟨t.pos, target.stop⟩ (.star target))
  | .sign "func" =>
    let s ← functionSignature g
    return some (.node s.span (.functionType s))
  | .sign "interface" => return some (← interfaceType g)
  | .sign "map" => return some (← dictionaryType g)
  | .sign "chan" | .sign "<-" => return some (← channelType g)
  | .sign "(" =>
    advance
    let inner ← g.type
    let closing ← expect ")"
    return some (.node ⟨t.pos, closing + 1⟩ (.group inner closing))
  | _ => return none

end NodeFamily.Layout.Grammar
