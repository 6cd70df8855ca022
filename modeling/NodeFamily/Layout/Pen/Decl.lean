import NodeFamily.Layout.Grammar.Decl
import NodeFamily.Layout.ImportOrder
import NodeFamily.Layout.Pen.Stmt
import NodeFamily.Text.Printable
import NodeFamily.Text.Quoted

/-!
# Writing declarations and files

Declarations of different kinds have an empty line between them, and so have those with
documentation. `SourceTree.write` writes a whole file.
-/

namespace NodeFamily.Layout

namespace Pen

open Writing

variable (pen : Pen)

/-- The characters that no import path may have. -/
def refusedInPaths : List Char :=
  "!\x22#$%&\x27()*,:;<=>?[\\]^\x7b|\x7d\x60\ufffd".toList

/-- An import path as it is written: in quotes, if it has no character that a path may not have. -/
def pathText (literal : String) : String :=
  match unquote? literal with
  | some path =>
    if !path.isEmpty && path.all (fun c =>
        Text.isPrintable c && !Text.isBlank c && !refusedInPaths.contains c) then
      Text.quote (String.ofList path)
    else literal
  | none => literal

/-- Whether each of several constants or variables keeps a column for a type: those with values do
when one among them on successive lines has a type. -/
def typeColumns (specs : List Spec) : List Bool :=
  let hasValues : Spec → Bool
    | .bindings _ _ values _ => !values.isEmpty
    | _ => false
  let hasType : Spec → Bool
    | .bindings _ type? _ _ => type?.isSome
    | _ => false
  (specs.splitBy fun a b => hasValues a == hasValues b).flatMap fun run =>
    run.map fun s => hasValues s && run.any hasType

/-- Writes constants or variables in a group of several, with a column for a type if asked to. -/
def bindingRow (s : Spec) (keeps : Bool) : Writing Unit := do
  match s with
  | .bindings ns type? values aside =>
    let typed := type?.isSome || keeps
    names pen ns false
    if typed then space .cell
    match type? with
    | some t => pen.plain t
    | none => pure ()
    if !values.isEmpty then
      space .cell
      sign "="
      space .blank
      exprs pen 0 values 1 false false 0
    if aside then
      for _ in List.range (3 - (if typed then 1 else 0) - (if values.isEmpty then 0 else 1)) do
        space .cell
  | _ => pure ()

/-- Writes an item of a declaration with `count` items, with its names indented if asked to. -/
def spec (count : Nat) (indented : Bool) (s : Spec) : Writing Unit := do
  match s with
  | .path name? literal _ stop =>
    match name? with
    | some n =>
      pen.plain (.ofName n)
      space .blank
    | none => pure ()
    pen.plain (.ofLiteral { literal with text := pathText literal.text })
    goTo stop
  | .bindings ns type? values _ =>
    names pen ns indented
    match type? with
    | some t =>
      space .blank
      pen.plain t
    | none => pure ()
    if !values.isEmpty then
      space .blank
      sign "="
      space .blank
      exprs pen 0 values 1 false false 0
  | .type n params? assign type =>
    pen.plain (.ofName n)
    match params? with
    | some l => params pen l .typeTypes
    | none => pure ()
    space (if count == 1 then .blank else .cell)
    if assign > 0 then
      sign "="
      space .blank
    pen.plain type

/-- Writes a general declaration. -/
def general (span : Span) (keyword : String) (opening : Nat) (specs : List Spec) (closing : Nat) :
    Writing Unit := do
  signAt span.start keyword
  space .blank
  match opening, specs with
  | 0, [s] => spec pen 1 true s
  | _, _ =>
    signAt opening "("
    let count := specs.length
    if count > 0 then
      space .indent
      space .newSection
      if count > 1 && (keyword == "const" || keyword == "var") then
        onLines (fun (s, _) => s.start) (fun (s, keeps) => bindingRow pen s keeps) none
          (specs.zip (typeColumns specs))
      else onLines Spec.start (spec pen count false) none specs
      space .unindent
      space .newSection
    signAt closing ")"

/-- Writes a function or a method. -/
def functionDecl (span : Span) (receiver? : Option FieldList) (n : Name) (s : Signature)
    (body? : Option Block) : Writing Unit := do
  signAt span.start "func"
  space .blank
  let column := (← get).outColumn - 5
  match receiver? with
  | some l =>
    params pen l .function
    space .blank
  | none => pure ()
  pen.plain (.ofName n)
  signature pen s
  match body? with
  | some b => body pen (← distance span.start column) .cell b
  | none => pure ()

/-- Writes a declaration. -/
def anyDecl (d : Decl) : Writing Unit :=
  match d with
  | .general _ span keyword opening specs closing => general pen span keyword opening specs closing
  | .function _ span receiver? n s body? => functionDecl pen span receiver? n s body?

/-- The pen for nodes around those that a pen writes. -/
def around : Pen := ⟨anyExpr pen, anyStmt pen, anyDecl pen⟩

/-- The pen for nodes nested at most so deep. -/
def ofDepth : Nat → Pen
  | 0 => dry
  | depth + 1 => around (ofDepth depth)

/-- Writes the declarations of a file after one with a keyword. -/
def declsFrom : (keyword : String) → List Decl → Writing Unit
  | _, [] => return
  | keyword, d :: rest => do
    let p ← get
    if p.size > 0 then
      let least := if d.keyword != keyword || d.documented then 2 else 1
      let first := p.table.line d.span.start
      let long := p.table.line d.span.stop > first
      let _ ← breakTo first least .none (d.keyword == "func" && long)
    pen.decl d
    declsFrom d.keyword rest

end Pen

/-- Writes a file. -/
def SourceTree.write (pen : Pen) (t : SourceTree) : Writing Unit := do
  Writing.signAt t.start "package"
  Writing.space .blank
  pen.plain (.ofName t.name)
  pen.declsFrom "" t.decls
  Writing.space .newline

end NodeFamily.Layout
