import NodeFamily.Layout.Lexeme

/-!
# Syntax trees

The structure of Go source, as far as its layout depends on it. A node knows the positions of its
parts, because the layout keeps line breaks of the source and puts comments back where they were.
Positions are as in `LineTable`: zero is no position.
-/

namespace NodeFamily.Layout

/-- The stretch of a node: its first position, and the one after its last character. -/
structure Span where
  /-- The first position. -/
  start : Nat
  /-- The position after the last character. -/
  stop : Nat
deriving DecidableEq, Repr

/-- An identifier at its place. -/
structure Name where
  /-- Its position. -/
  pos : Nat
  /-- Its text. -/
  text : String
deriving DecidableEq, Repr

/-- The position after a name. -/
def Name.stop (n : Name) : Nat := n.pos + octets n.text.toList

/-- A literal at its place. -/
structure Literal where
  /-- Its position. -/
  pos : Nat
  /-- Its kind. -/
  kind : LiteralKind
  /-- Its text. -/
  text : String
deriving DecidableEq, Repr

/-- The position after a literal. -/
def Literal.stop (l : Literal) : Nat := l.pos + octets l.text.toList

/-- The directions of a channel. -/
inductive Direction
  | both
  | send
  | receive
deriving DecidableEq, Repr

mutual

/-- An expression or a type. -/
inductive Expr
  | node (span : Span) (form : Form)

/-- What an expression or a type is made of. -/
inductive Form
  | name (text : String)
  | literal (kind : LiteralKind) (text : String)
  /-- A literal of a composite type, which may be left out inside another one. -/
  | composite (type? : Option Expr) (opening : Nat) (elements : List Expr) (closing : Nat)
  /-- A function with its body. -/
  | function (signature : Signature) (body : Block)
  | group (inner : Expr) (closing : Nat)
  | member (base : Expr) (name : Name)
  /-- An index, or type arguments. -/
  | index (base : Expr) (opening : Nat) (indices : List Expr) (closing : Nat)
  | slice (base : Expr) (opening : Nat) (low? high? most? : Option Expr) (closing : Nat)
  /-- A type assertion; without a type it asks for the type. -/
  | assertion (base : Expr) (opening : Nat) (type? : Option Expr) (closing : Nat)
  /-- A call; `dots` is the position of the dots after its last argument. -/
  | call (function : Expr) (opening : Nat) (args : List Expr) (dots closing : Nat)
  | star (target : Expr)
  | unary (op : String) (operand : Expr)
  | binary (left : Expr) (opPos : Nat) (op : String) (right : Expr)
  /-- A key and its value in a composite literal. -/
  | pair (key : Expr) (colon : Nat) (value : Expr)
  /-- Dots with or without a type after them. -/
  | dots (element? : Option Expr)
  | array (length? : Option Expr) (element : Expr)
  | struct (fields : FieldList)
  | functionType (signature : Signature)
  | interface (methods : FieldList)
  | dictionary (key value : Expr)
  | channel (direction : Direction) (arrow : Nat) (value : Expr)

/-- The parameters and results of a function, and where its type starts. -/
inductive Signature
  | mk (span : Span) (typeParams? : Option FieldList) (params : FieldList)
      (results? : Option FieldList)

/-- Fields, parameters or methods with what encloses them. -/
inductive FieldList
  | mk (opening : Nat) (fields : List Field) (closing : Nat)

/-- Names with their type, or a type alone; `aside` says whether a comment follows on the line. -/
inductive Field
  | mk (names : List Name) (type : Expr) (tag? : Option Literal) (aside : Bool)

/-- A statement. -/
inductive Stmt
  | node (span : Span) (form : Act)

/-- What a statement is made of. -/
inductive Act
  | declaration (decl : Decl)
  | empty
  | labeled (label : Name) (colon : Nat) (body : Stmt)
  | expression (value : Expr)
  | send (channel : Expr) (arrow : Nat) (value : Expr)
  /-- An increment or a decrement. -/
  | step (target : Expr) (opPos : Nat) (op : String)
  | assign (targets : List Expr) (opPos : Nat) (op : String) (values : List Expr)
  /-- A call that runs beside or after the function. -/
  | spawn (keyword : String) (call : Expr)
  | returns (results : List Expr)
  | branch (keyword : String) (label? : Option Name)
  | block (body : Block)
  | ifElse (init? : Option Stmt) (condition? : Option Expr) (body : Block) (else? : Option Stmt)
  /-- A case of a switch; without values it is the default. -/
  | caseOf (values : List Expr) (colon : Nat) (body : List Stmt)
  /-- A case of a selection; without a communication it is the default. -/
  | communication (act? : Option Stmt) (colon : Nat) (body : List Stmt)
  | switch (init? : Option Stmt) (tag? : Option Expr) (body : Block)
  | typeSwitch (init? : Option Stmt) (guard : Stmt) (body : Block)
  | select (body : Block)
  | loop (init? : Option Stmt) (condition? : Option Expr) (post? : Option Stmt) (body : Block)
  | rangeLoop (key? value? : Option Expr) (opPos : Nat) (op : String) (values : Expr) (body : Block)

/-- Statements in braces. -/
inductive Block
  | mk (opening : Nat) (stmts : List Stmt) (closing : Nat)

/-- A declaration; `documented` says whether a comment stands right above it. -/
inductive Decl
  /-- Imports, constants, variables or types, in parentheses unless `opening` is zero. -/
  | general (documented : Bool) (span : Span) (keyword : String) (opening : Nat)
      (specs : List Spec) (closing : Nat)
  /-- A function or a method. -/
  | function (documented : Bool) (span : Span) (receiver? : Option FieldList) (name : Name)
      (signature : Signature) (body? : Option Block)

/-- One item of a general declaration. -/
inductive Spec
  /-- An import with the text of the comment after it; `stop` is its end when it was moved. -/
  | path (name? : Option Name) (literal : Literal) (comment : String) (stop : Nat)
  /-- Constants or variables. -/
  | bindings (names : List Name) (type? : Option Expr) (values : List Expr) (aside : Bool)
  /-- A type; `assign` is the position of the sign that makes it an alias. -/
  | type (name : Name) (params? : Option FieldList) (assign : Nat) (type : Expr)

end

/-- The stretch of an expression. -/
def Expr.span : Expr → Span
  | .node span _ => span

/-- What an expression is made of. -/
def Expr.form : Expr → Form
  | .node _ form => form

/-- The first position of an expression. -/
def Expr.start (x : Expr) : Nat := x.span.start

/-- The position after an expression. -/
def Expr.stop (x : Expr) : Nat := x.span.stop

/-- A name as an expression. -/
def Expr.ofName (n : Name) : Expr := .node ⟨n.pos, n.stop⟩ (.name n.text)

/-- A literal as an expression. -/
def Expr.ofLiteral (l : Literal) : Expr := .node ⟨l.pos, l.stop⟩ (.literal l.kind l.text)

/-- The name that an expression is, if it is one. -/
def Expr.name? : Expr → Option Name
  | .node span (.name text) => some ⟨span.start, text⟩
  | _ => none

/-- What stands in the parentheses around an expression. -/
def Expr.ungrouped : Expr → Expr
  | .node _ (.group inner _) => inner.ungrouped
  | x => x

/-- The stretch of a statement. -/
def Stmt.span : Stmt → Span
  | .node span _ => span

/-- What a statement is made of. -/
def Stmt.act : Stmt → Act
  | .node _ act => act

/-- The first position of a statement. -/
def Stmt.start (s : Stmt) : Nat := s.span.start

/-- The position after a statement. -/
def Stmt.stop (s : Stmt) : Nat := s.span.stop

/-- Whether a statement is empty. -/
def Stmt.isEmpty : Stmt → Bool
  | .node _ .empty => true
  | _ => false

/-- The number of labels before a statement. -/
def Stmt.labels : Stmt → Nat
  | .node _ (.labeled _ _ body) => body.labels + 1
  | _ => 0

/-- The stretch of a signature. -/
def Signature.span : Signature → Span
  | .mk span _ _ _ => span

/-- The position of what opens a list. -/
def FieldList.opening : FieldList → Nat
  | .mk opening _ _ => opening

/-- The fields of a list. -/
def FieldList.fields : FieldList → List Field
  | .mk _ fields _ => fields

/-- The position of what closes a list. -/
def FieldList.closing : FieldList → Nat
  | .mk _ _ closing => closing

/-- The names of a field. -/
def Field.names : Field → List Name
  | .mk names _ _ _ => names

/-- The type of a field. -/
def Field.type : Field → Expr
  | .mk _ type _ _ => type

/-- The tag of a field. -/
def Field.tag? : Field → Option Literal
  | .mk _ _ tag _ => tag

/-- Whether a comment follows a field on its line. -/
def Field.aside : Field → Bool
  | .mk _ _ _ aside => aside

/-- The first position of a field. -/
def Field.start (f : Field) : Nat := (f.names.head?.map Name.pos).getD f.type.start

/-- The position after a field. -/
def Field.stop (f : Field) : Nat := (f.tag?.map Literal.stop).getD f.type.stop

/-- The number of names and types without a name in a list. -/
def FieldList.count (l : FieldList) : Nat :=
  l.fields.foldl (fun n f => n + max 1 f.names.length) 0

/-- The position after a list. -/
def FieldList.stop (l : FieldList) : Nat :=
  if l.closing > 0 then l.closing + 1 else (l.fields.getLast?.map Field.stop).getD 0

/-- The position of the brace that opens a block. -/
def Block.opening : Block → Nat
  | .mk opening _ _ => opening

/-- The statements of a block. -/
def Block.stmts : Block → List Stmt
  | .mk _ stmts _ => stmts

/-- The position of the brace that closes a block. -/
def Block.closing : Block → Nat
  | .mk _ _ closing => closing

/-- The stretch of a declaration. -/
def Decl.span : Decl → Span
  | .general _ span _ _ _ _ => span
  | .function _ span _ _ _ _ => span

/-- Whether a comment stands right above a declaration. -/
def Decl.documented : Decl → Bool
  | .general documented _ _ _ _ _ => documented
  | .function documented _ _ _ _ _ => documented

/-- The keyword of a declaration. -/
def Decl.keyword : Decl → String
  | .general _ _ keyword _ _ _ => keyword
  | .function _ _ _ _ _ _ => "func"

/-- The first position of an item. -/
def Spec.start : Spec → Nat
  | .path name? literal _ _ => (name?.map Name.pos).getD literal.pos
  | .bindings names _ _ _ => (names.head?.map Name.pos).getD 0
  | .type name _ _ _ => name.pos

/-- The position after an item. -/
def Spec.stop : Spec → Nat
  | .path _ literal _ stop => if stop > 0 then stop else literal.stop
  | .bindings names type? values _ =>
    match values.getLast?, type? with
    | some v, _ => v.stop
    | none, some t => t.stop
    | none, none => (names.getLast?.map Name.stop).getD 0
  | .type _ _ _ t => t.stop

/-- The precedence of a binary operator; zero for any other sign. -/
def precedence (op : String) : Nat :=
  if op == "||" then 1
  else if op == "&&" then 2
  else if ["==", "!=", "<", "<=", ">", ">="].contains op then 3
  else if ["+", "-", "|", "^"].contains op then 4
  else if ["*", "/", "%", "<<", ">>", "&", "&^"].contains op then 5
  else 0

/-- Whether an expression can only be a type. -/
def Expr.isTypeElement : Expr → Bool
  | .node _ (.array _ _) | .node _ (.struct _) | .node _ (.functionType _)
  | .node _ (.interface _) | .node _ (.dictionary _ _) | .node _ (.channel _ _ _) => true
  | .node _ (.binary left _ _ right) => left.isTypeElement || right.isTypeElement
  | .node _ (.unary op _) => op == "~"
  | .node _ (.group inner _) => inner.isTypeElement
  | _ => false

end NodeFamily.Layout
