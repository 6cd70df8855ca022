import NodeFamily.Proofs.Layout.Reads

/-!
# What a file is made of

The types, values and declarations that an emitted file is written with, each with its lexical
elements and with its syntax tree. The elements of a declaration come line by line. `IsTree` says of
a tree that it has a shape and that its parts stand on the line that they should, which is all that
the layout looks at.
-/

namespace NodeFamily.Layout

open Grammar

variable {t : LineTable} {line : Nat}

/-- An expression starts and ends on a line. -/
structure Expr.LiesOn (t : LineTable) (line : Nat) (x : Expr) : Prop where
  /-- There is such a position. -/
  isPosition : 0 < x.start
  /-- The expression starts on the line. -/
  start : t.line x.start = line
  /-- The expression ends on the line. -/
  stop : t.line x.stop = line

/-- A name lies on its line. -/
theorem Name.IsOn.liesOn {n : Name} {word : String} (h : n.IsOn t line word) :
    (Expr.ofName n).LiesOn t line := by
  obtain ⟨rfl, h⟩ := h
  exact ⟨h.isPosition, h.start, h.stop⟩

/-- What closes something ends one octet on. -/
theorem LineTable.Has.succ {c : String} {pos : Nat} (h : t.Has line c pos)
    (hc : octets c.toList = 1) : t.line (pos + 1) = line := by
  rw [← hc]
  exact h.stop

/-! ## Types -/

/-- The name of a type as a file writes it. -/
inductive NamedType
  /-- A name alone. -/
  | name (n : String)
  /-- A name with the package before it. -/
  | member (p n : String)
  /-- A name with a type argument. -/
  | applied (n arg : String)

/-- A type as a file writes it. -/
structure TypeShape where
  /-- Whether the type begins with a star. -/
  starred : Bool
  /-- The type after the star. -/
  base : NamedType

namespace NamedType

/-- The first name of a type. -/
def first : NamedType → String
  | name n | applied n _ => n
  | member p _ => p

/-- The elements of a type after its first name. -/
def others : NamedType → List Lexeme
  | name _ => []
  | member _ n => [.sign ".", .name n]
  | applied _ arg => [.sign "[", .name arg, .sign "]"]

/-- The trees of a type without a star. -/
inductive IsTree (t : LineTable) (line : Nat) : NamedType → Expr → Prop
  | name {n : String} {m : Name} : m.IsOn t line n → IsTree t line (.name n) (.ofName m)
  | member {p n : String} {m m' : Name} : m.IsOn t line p → m'.IsOn t line n →
      IsTree t line (.member p n) (memberOf (.ofName m) m')
  | applied {n arg : String} {m a : Name} {opening closing : Nat} : m.IsOn t line n →
      t.Has line "[" opening → a.IsOn t line arg → t.Has line "]" closing →
      IsTree t line (.applied n arg) (indexed (.ofName m) opening [.ofName a] closing)

/-- A type without a star lies on its line. -/
theorem IsTree.liesOn {b : NamedType} {x : Expr} (h : b.IsTree t line x) : x.LiesOn t line := by
  cases h with
  | name hm => exact hm.liesOn
  | member hm hm' => exact ⟨hm.liesOn.isPosition, hm.liesOn.start, hm'.liesOn.stop⟩
  | applied hm _ _ hclosing =>
    exact ⟨hm.liesOn.isPosition, hm.liesOn.start, hclosing.succ (by decide)⟩

end NamedType

namespace TypeShape

/-- The elements of a type. -/
def lexemes (s : TypeShape) : List Lexeme :=
  (if s.starred then [.sign "*"] else []) ++ .name s.base.first :: s.base.others

/-- The trees of a type. -/
inductive IsTree (t : LineTable) (line : Nat) : TypeShape → Expr → Prop
  | plain {b : NamedType} {x : Expr} : b.IsTree t line x → IsTree t line ⟨false, b⟩ x
  | star {b : NamedType} {x : Expr} {pos : Nat} : t.Has line "*" pos → b.IsTree t line x →
      IsTree t line ⟨true, b⟩ (.node ⟨pos, x.stop⟩ (.star x))

/-- A type lies on its line. -/
theorem IsTree.liesOn {s : TypeShape} {x : Expr} (h : s.IsTree t line x) : x.LiesOn t line := by
  cases h with
  | plain hx => exact hx.liesOn
  | star hpos hx => exact ⟨hpos.isPosition, hpos.start, hx.liesOn.stop⟩

/-- No type is dots. -/
theorem IsTree.isDots {s : TypeShape} {x : Expr} (h : s.IsTree t line x) : isDots x = false := by
  cases h with
  | plain hx => cases hx <;> rfl
  | star => rfl

/-- No type stands in parentheses. -/
theorem IsTree.ungrouped {s : TypeShape} {x : Expr} (h : s.IsTree t line x) : x.ungrouped = x := by
  cases h with
  | plain hx =>
    cases hx with
    | name => exact Expr.ungrouped.eq_2 _ (by simp [Expr.ofName])
    | member => exact Expr.ungrouped.eq_2 _ (by simp [memberOf])
    | applied => exact Expr.ungrouped.eq_2 _ (by simp [indexed])
  | star => exact Expr.ungrouped.eq_2 _ (by simp)

end TypeShape

/-! ## Parameters and fields -/

/-- A name with its type, as in a parameter or a field. -/
abbrev NamedField := String × TypeShape

/-- The elements of a name with its type. -/
def NamedField.lexemes (p : NamedField) : List Lexeme := .name p.1 :: p.2.lexemes

/-- The elements of parameters with commas between them. -/
def NamedField.listLexemes (ps : List NamedField) : List Lexeme :=
  Reads.separated NamedField.lexemes ps

/-- The trees of a name with its type. -/
inductive NamedField.IsTree (t : LineTable) (line : Nat) : NamedField → Field → Prop
  | mk {n : String} {s : TypeShape} {m : Name} {x : Expr} : m.IsOn t line n → s.IsTree t line x →
      IsTree t line (n, s) (.mk [m] x none false)

/-- The trees of parameters in brackets. -/
inductive NamedField.IsList (t : LineTable) (line : Nat) (opens closes : String)
    (ps : List NamedField) : FieldList → Prop
  | mk {opening closing : Nat} {fs : List Field} : t.Has line opens opening →
      List.Forall₂ (NamedField.IsTree t line) ps fs → t.Has line closes closing →
      IsList t line opens closes ps (.mk opening fs closing)

/-- The trees of a result without a name. -/
inductive TypeShape.IsResult (t : LineTable) (line : Nat) (s : TypeShape) : FieldList → Prop
  | mk {x : Expr} : s.IsTree t line x → IsResult t line s (.mk 0 [.mk [] x none false] 0)

/-- A method of an interface with a parameter and a result. -/
structure MethodShape where
  /-- The name. -/
  name : String
  /-- The parameter. -/
  param : NamedField
  /-- The result. -/
  result : TypeShape

/-- The elements of a method, to the end of its line. -/
def MethodShape.lexemes (m : MethodShape) : List Lexeme :=
  .name m.name :: .sign "(" :: (NamedField.listLexemes [m.param] ++ .sign ")" ::
    (m.result.lexemes ++ [.semicolon false]))

/-- The trees of a method. -/
inductive MethodShape.IsTree (t : LineTable) (line : Nat) (m : MethodShape) : Field → Prop
  | mk {n : Name} {ps rs : FieldList} {start : Nat} : n.IsOn t line m.name →
      NamedField.IsList t line "(" ")" [m.param] ps → m.result.IsResult t line rs →
      IsTree t line m (.mk [n] (.node (signatureOf start none ps (some rs)).span
        (.functionType (signatureOf start none ps (some rs)))) none false)

/-! ## Structs and interfaces -/

/-- What stands in the braces of a type. -/
inductive TypeBody
  | struct (fields : List NamedField)
  | interface (methods : List MethodShape)

namespace TypeBody

/-- The keyword before the braces. -/
def keyword : TypeBody → String
  | struct _ => "struct"
  | interface _ => "interface"

/-- The elements of the lines in the braces. -/
def rows : TypeBody → List (List Lexeme)
  | struct fields => fields.map fun p => p.lexemes ++ [.semicolon false]
  | interface methods => methods.map MethodShape.lexemes

/-- The trees of what stands in the braces, which open on a line. -/
inductive IsTree (t : LineTable) (line : Nat) : TypeBody → Expr → Prop
  | struct {ps : List NamedField} {start opening closing : Nat} {fs : List Field} :
      t.Has line "struct" start → t.Has line "\x7b" opening →
      List.Forall₂ (fun p f => NamedField.IsTree t p.2 p.1 f) (ps.zipIdx (line + 1)) fs →
      t.Has (line + 1 + ps.length) "\x7d" closing →
      IsTree t line (struct ps) (.node ⟨start, closing + 1⟩ (.struct (.mk opening fs closing)))
  | interface {ms : List MethodShape} {start opening closing : Nat} {fs : List Field} :
      t.Has line "interface" start → t.Has line "\x7b" opening →
      List.Forall₂ (fun m f => MethodShape.IsTree t m.2 m.1 f) (ms.zipIdx (line + 1)) fs →
      t.Has (line + 1 + ms.length) "\x7d" closing →
      IsTree t line (interface ms)
        (.node ⟨start, closing + 1⟩ (.interface (.mk opening fs closing)))

end TypeBody

/-! ## Values -/

/-- A value as a file writes it. -/
inductive ValueShape
  /-- The null pointer as a pointer to a generic type of any result. -/
  | null (n : String)
  /-- A call of a method of the visitor. -/
  | visit (m : String)
  /-- The address of a literal of a generic type whose fields are given by names. -/
  | literal (n r : String) (ps : List (String × String))

namespace ValueShape

/-- The elements of a key and its value. -/
def pairLexemes (p : String × String) : List Lexeme := [.name p.1, .sign ":", .name p.2]

/-- The elements of a value. -/
def lexemes : ValueShape → List Lexeme
  | null n => [.sign "(", .sign "*", .name n, .sign "[", .name "any", .sign "]", .sign ")",
      .sign "(", .name "nil", .sign ")"]
  | visit m => [.name "visitor", .sign ".", .name m, .sign "(", .name "e", .sign ")"]
  | literal n r ps => .sign "&" :: .name n :: .sign "[" :: .name r :: .sign "]" :: .sign "\x7b" ::
      (Reads.separated pairLexemes ps ++ [.sign "\x7d"])

/-- The trees of a key and its value. -/
inductive IsPair (t : LineTable) (line : Nat) (p : String × String) : Expr → Prop
  | mk {key value : Name} {colon : Nat} : key.IsOn t line p.1 → t.Has line ":" colon →
      value.IsOn t line p.2 → IsPair t line p
        (.node ⟨key.pos, value.stop⟩ (.pair (.ofName key) colon (.ofName value)))

/-- The trees of a value. -/
inductive IsTree (t : LineTable) (line : Nat) : ValueShape → Expr → Prop
  | null {n : String} {start closing opening' closing' : Nat} {x : Expr} {m : Name} :
      t.Has line "(" start → TypeShape.IsTree t line ⟨true, .applied n "any"⟩ x →
      t.Has line ")" closing → t.Has line "(" opening' → m.IsOn t line "nil" →
      t.Has line ")" closing' →
      IsTree t line (null n) (.node ⟨start, closing' + 1⟩
        (.call (.node ⟨start, closing + 1⟩ (.group x closing)) opening' [.ofName m] 0 closing'))
  | visit {n : String} {opening closing : Nat} {x : Expr} {m : Name} :
      NamedType.IsTree t line (.member "visitor" n) x → t.Has line "(" opening →
      m.IsOn t line "e" → t.Has line ")" closing →
      IsTree t line (visit n) (.node ⟨x.start, closing + 1⟩
        (.call x opening [.ofName m] 0 closing))
  | literal {n r : String} {ps : List (String × String)} {start opening closing : Nat} {x : Expr}
      {xs : List Expr} :
      t.Has line "&" start → NamedType.IsTree t line (.applied n r) x →
      t.Has line "\x7b" opening → List.Forall₂ (IsPair t line) ps xs →
      t.Has line "\x7d" closing →
      IsTree t line (literal n r ps) (.node ⟨start, closing + 1⟩
        (.unary "&" (.node ⟨x.start, closing + 1⟩ (.composite (some x) opening xs closing))))

/-- A value lies on its line. -/
theorem IsTree.liesOn {v : ValueShape} {x : Expr} (h : v.IsTree t line x) : x.LiesOn t line := by
  cases h with
  | null hstart _ _ _ _ hclosing =>
    exact ⟨hstart.isPosition, hstart.start, hclosing.succ (by decide)⟩
  | visit hx _ _ hclosing =>
    exact ⟨hx.liesOn.isPosition, hx.liesOn.start, hclosing.succ (by decide)⟩
  | literal hstart _ _ _ hclosing =>
    exact ⟨hstart.isPosition, hstart.start, hclosing.succ (by decide)⟩

end ValueShape

/-! ## Declarations -/

/-- What stands between the keyword of a function and its parameters. -/
inductive FunctionHead
  /-- The receiver and the name of a method. -/
  | method (receiver : NamedField) (n : String)
  /-- The name of a function and its type parameter. -/
  | generic (n r : String)

/-- The type parameter of a generic type or function. -/
def typeParam (r : String) : NamedField := (r, ⟨false, .name "any"⟩)

/-- The elements of a head. -/
def FunctionHead.lexemes : FunctionHead → List Lexeme
  | method receiver n =>
    .sign "(" :: (NamedField.listLexemes [receiver] ++ [.sign ")", .name n])
  | generic n r =>
    .name n :: .sign "[" :: (NamedField.listLexemes [typeParam r] ++ [.sign "]"])

/-- The trees of a head: the receiver, the name and the type parameters. -/
inductive FunctionHead.IsTree (t : LineTable) (line : Nat) :
    FunctionHead → Option FieldList → Name → Option FieldList → Prop
  | method {receiver : NamedField} {n : String} {l : FieldList} {m : Name} :
      NamedField.IsList t line "(" ")" [receiver] l → m.IsOn t line n →
      IsTree t line (method receiver n) (some l) m none
  | generic {n r : String} {l : FieldList} {m : Name} : m.IsOn t line n →
      NamedField.IsList t line "[" "]" [typeParam r] l →
      IsTree t line (generic n r) none m (some l)

/-- A declaration as a file writes it. -/
inductive DeclShape
  /-- A generic type. -/
  | type (n r : String) (body : TypeBody)
  /-- A variable with its type and its value. -/
  | var (n : String) (type : TypeShape) (value : ValueShape)
  /-- A function or a method that returns a value. -/
  | function (head : FunctionHead) (params : List NamedField) (result : TypeShape)
      (value : ValueShape)

namespace DeclShape

/-- The elements of the lines of a declaration. -/
def lines : DeclShape → List (List Lexeme)
  | type n r body =>
    (.sign "type" :: .name n :: .sign "[" :: (NamedField.listLexemes [typeParam r] ++
      [.sign "]", .sign body.keyword, .sign "\x7b"])) ::
      (body.rows ++ [[.sign "\x7d", .semicolon false]])
  | var n s value =>
    [.sign "var" :: .name n :: (s.lexemes ++ .sign "=" :: (value.lexemes ++
      [.semicolon false]))]
  | function head params result value =>
    [.sign "func" :: (head.lexemes ++ .sign "(" :: (NamedField.listLexemes params ++
        .sign ")" :: (result.lexemes ++ [.sign "\x7b"]))),
      .sign "return" :: (value.lexemes ++ [.semicolon false]),
      [.sign "\x7d", .semicolon false]]

/-- A declaration begins with a keyword other than that of an import. -/
theorem exists_lines_eq_cons (s : DeclShape) :
    ∃ k ls lss, s.lines = (.sign k :: ls) :: lss ∧ k ≠ "import" := by
  cases s with
  | type n r body => exact ⟨_, _, _, rfl, by simp⟩
  | var n s v => exact ⟨_, _, _, rfl, by simp⟩
  | function head ps result v => exact ⟨_, _, _, rfl, by simp⟩

/-- The trees of a declaration that starts on a line. -/
inductive IsTree (t : LineTable) (line : Nat) : DeclShape → Decl → Prop
  | type {n r : String} {body : TypeBody} {documented : Bool} {start stop : Nat} {m : Name}
      {l : FieldList} {x : Expr} :
      t.Has line "type" start → m.IsOn t line n →
      NamedField.IsList t line "[" "]" [typeParam r] l → body.IsTree t line x →
      IsTree t line (type n r body)
        (.general documented ⟨start, stop⟩ "type" 0 [.type m (some l) 0 x] 0)
  | var {n : String} {s : TypeShape} {value : ValueShape} {documented : Bool}
      {start stop : Nat} {m : Name} {x y : Expr} :
      t.Has line "var" start → m.IsOn t line n → s.IsTree t line x → value.IsTree t line y →
      IsTree t line (var n s value)
        (.general documented ⟨start, stop⟩ "var" 0 [.bindings [m] (some x) [y] false] 0)
  | function {head : FunctionHead} {params : List NamedField} {result : TypeShape}
      {value : ValueShape} {documented : Bool} {start opening begins ends closing : Nat}
      {receiver? generic? : Option FieldList} {m : Name} {ps rs : FieldList} {x : Expr} :
      t.Has line "func" start → head.IsTree t line receiver? m generic? →
      NamedField.IsList t line "(" ")" params ps → result.IsResult t line rs →
      t.Has line "\x7b" opening → t.Has (line + 1) "return" begins →
      value.IsTree t (line + 1) x → t.Has (line + 2) "\x7d" closing →
      IsTree t line (function head params result value)
        (.function documented ⟨start, closing + 1⟩ receiver? m
          (signatureOf start generic? ps (some rs))
          (some (.mk opening [.node ⟨begins, ends⟩ (.returns [x])] closing)))

end DeclShape

/-! ## Files -/

/-- The elements of the lines of imports, which are left out when there is nothing to import. -/
def importLexemes (paths : List String) : List (List Lexeme) :=
  match paths with
  | [] => []
  | paths => [.sign "import", .sign "("] ::
      (paths.map (fun p => [Lexeme.literal .text p, .semicolon false]) ++
        [[.sign ")", .semicolon false]])

/-- The trees of an import. -/
inductive IsImport (t : LineTable) (line : Nat) (p : String) : Spec → Prop
  | mk {pos : Nat} : t.Has line p pos → IsImport t line p (.path none ⟨pos, .text, p⟩ "" 0)

/-- The trees of imports that begin on a line. -/
inductive IsImports (t : LineTable) (line : Nat) (paths : List String) : Decl → Prop
  | mk {documented : Bool} {start opening closing : Nat} {specs : List Spec} :
      t.Has line "import" start → t.Has line "(" opening →
      List.Forall₂ (fun p s => IsImport t p.2 p.1 s) (paths.zipIdx (line + 1)) specs →
      t.Has (line + 1 + paths.length) ")" closing →
      IsImports t line paths
        (.general documented ⟨start, closing + 1⟩ "import" opening specs closing)

end NodeFamily.Layout
