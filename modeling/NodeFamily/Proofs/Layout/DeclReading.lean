import NodeFamily.Proofs.Layout.ExprReading

/-!
# Reading the declarations of a file

The grammar reads the declarations that an emitted file is made of, and gives their trees
(`reads_decl`): generic types, a variable, and functions and methods whose body returns a value.
`reads_file` puts them together: a package clause with imports and such declarations after it is a
file, whatever the names in it are and on whatever lines they stand.
-/

namespace NodeFamily.Layout

open Grammar

variable {t : LineTable} {line d : Nat} {i : Item} {before rest : List Item}

/-! ## Bodies of functions -/

/-- A value does not begin as the end of a statement or of a block. -/
theorem ValueShape.exists_lexemes_eq_cons (v : ValueShape) :
    ∃ l ls, v.lexemes = l :: ls ∧ l.isSemicolon = false ∧ l ≠ .sign "\x7d" := by
  cases v with
  | null n => exact ⟨_, _, rfl, rfl, by simp⟩
  | visit m => exact ⟨_, _, rfl, rfl, by simp⟩
  | literal n r ps => exact ⟨_, _, rfl, rfl, by simp⟩

/-- The return of a value is read. -/
theorem reads_return (v : ValueShape) :
    Reads t (ofDepth (d + 8)).stmt
      (Item.on line (.sign "return" :: (v.lexemes ++ [.semicolon false])) ++ rest) rest
      (fun s => ∃ begins ends x, t.Has line "return" begins ∧ v.IsTree t line x ∧
        s = .node ⟨begins, ends⟩ (.returns [x])) := by
  have hvalue : Reads t ((ofDepth (d + 7)).exprs true)
      (Item.on line v.lexemes ++ ⟨line, .semicolon false⟩ :: rest)
      (⟨line, .semicolon false⟩ :: rest) (fun xs => ∃ x, xs = [x] ∧ v.IsTree t line x) :=
    reads_exprs_of_unary (reads_unary_value v rfl) rfl (by simp)
  obtain ⟨l, ls, hv, hsemicolon, hclosing⟩ := v.exists_lexemes_eq_cons
  have hreturns : Reads t (returns (ofDepth (d + 7)))
      (⟨line, .sign "return"⟩ :: (Item.on line v.lexemes ++ ⟨line, .semicolon false⟩ :: rest)) rest
      (fun s => ∃ begins ends x, t.Has line "return" begins ∧ v.IsTree t line x ∧
        s = .node ⟨begins, ends⟩ (.returns [x])) := by
    unfold returns
    rw [hv, Item.on_cons, List.cons_append] at hvalue ⊢
    refine Reads.expect.bind fun begins hbegins => Reads.isAtSemicolon.bind fun b hb =>
      Reads.isAt.bind fun c hc => ?_
    -- A value follows, which is neither the end of the statement nor that of the body.
    have hneither : (b || c) = false := by
      rw [hb, hc, hsemicolon, Bool.false_or, beq_eq_false_iff_ne]
      exact hclosing
    dsimp only
    rw [hneither]
    refine hvalue.bind ?_
    rintro _ ⟨x, rfl, hx⟩
    exact Reads.finish.bind fun _ _ => .pure ⟨begins, _, x, hbegins, hx, rfl⟩
  change Reads t (anyStmt (ofDepth (d + 7))) _ _ _
  unfold anyStmt
  simp only [Item.on_cons, Item.on_append, Item.on_nil, List.cons_append, List.append_assoc,
    List.nil_append]
  refine Reads.current.bind fun token ht => ?_
  rw [ht.lexeme]
  exact hreturns

/-- A body that returns a value is read. -/
theorem reads_functionBody (v : ValueShape) :
    Reads t (ofDepth (d + 9)).block
      (⟨line, .sign "\x7b"⟩ ::
        (Item.on (line + 1) (.sign "return" :: (v.lexemes ++ [.semicolon false])) ++
          ⟨line + 2, .sign "\x7d"⟩ :: rest)) rest
      (fun b => ∃ opening begins ends x closing, t.Has line "\x7b" opening ∧
        t.Has (line + 1) "return" begins ∧ v.IsTree t (line + 1) x ∧
        t.Has (line + 2) "\x7d" closing ∧
        b = .mk opening [.node ⟨begins, ends⟩ (.returns [x])] closing) := by
  have hmore : ∀ (i : Item) rest, Reads t (do
      return !(← Reading.isAtAny ["case", "default", "\x7d"]) && (← Reading.lexeme) != .finish)
      (i :: rest) (i :: rest)
      (· = (!i.lexeme.isAmong ["case", "default", "\x7d"] && i.lexeme != .finish)) := by
    intro i rest
    exact Reads.isAtAny.bind fun b hb => Reads.lexeme.bind fun m hm => .pure (by rw [hb, hm])
  have hstmts : Reads t (stmts (ofDepth (d + 8)))
      ([v].flatMap (fun v =>
          Item.on (line + 1) (.sign "return" :: (v.lexemes ++ [.semicolon false]))) ++
        ⟨line + 2, .sign "\x7d"⟩ :: rest) (⟨line + 2, .sign "\x7d"⟩ :: rest)
      (List.Forall₂ (fun v s => ∃ begins ends x, t.Has (line + 1) "return" begins ∧
        ValueShape.IsTree t (line + 1) v x ∧ s = .node ⟨begins, ends⟩ (.returns [x])) [v]) := by
    refine Reads.fuel.bind fun n hn => Reads.whileMore ?_ (fun v _ rest => reads_return v) ?_ ?_ hn
    · exact fun v _ rest => hmore _ _
    · simp
    · exact hmore _ _
  rw [List.flatMap_singleton] at hstmts
  change Reads t (anyBlock (ofDepth (d + 8))) _ _ _
  unfold anyBlock
  refine Reads.expect.bind fun opening hopening => hstmts.bind fun ss hss => ?_
  obtain ⟨_, _, ⟨begins, ends, x, hbegins, hx, rfl⟩, hnil, rfl⟩ :=
    List.forall₂_cons_left_iff.1 hss
  obtain rfl := List.forall₂_nil_left_iff.1 hnil
  exact Reads.expect.bind fun closing hclosing =>
    .pure ⟨opening, begins, ends, x, closing, hopening, hbegins, hx, hclosing, rfl⟩

/-! ## Functions -/

/-- What stands between the keyword of a function and its parameters is read. -/
theorem reads_functionHead (head : FunctionHead) {post : Decl → Prop} {after : List Item}
    {other : Option FieldList → Name → Option FieldList → Reading Decl}
    (h : ∀ receiver? n generic?, head.IsTree t line receiver? n generic? →
      Reads t (other receiver? n generic?) (⟨line, .sign "("⟩ :: rest) after post) :
    Reads t (do
      let receiver? ← if ← Reading.isAt "(" then pure (some (← params (ofDepth (d + 3)) false))
        else pure none
      let n ← Reading.name
      let generic? ← typeParams? (ofDepth (d + 3))
      if (receiver?.isSome && generic?.isSome) = true then failure
      other receiver? n generic?)
      (Item.on line head.lexemes ++ ⟨line, .sign "("⟩ :: rest) after post := by
  cases head with
  | method receiver n =>
    have hnone : Reads t (typeParams? (ofDepth (d + 3))) (⟨line, .sign "("⟩ :: rest)
        (⟨line, .sign "("⟩ :: rest) (· = none) := by
      unfold typeParams?
      exact .ifNotAt (by simp) (.pure rfl)
    simp only [FunctionHead.lexemes, Item.on_cons, Item.on_append, Item.on_nil, List.cons_append,
      List.append_assoc, List.nil_append]
    refine .ifAt ((reads_params [receiver] false).bind fun l hl => ?_)
    rw [pure_bind]
    refine Reads.name.bind fun m hm => hnone.bind ?_
    rintro _ rfl
    exact h _ _ _ (.method hl hm)
  | generic n r =>
    have hsome : Reads t (typeParams? (ofDepth (d + 3)))
        (⟨line, .sign "["⟩ :: (Item.on line (NamedField.listLexemes [typeParam r]) ++
          ⟨line, .sign "]"⟩ :: ⟨line, .sign "("⟩ :: rest))
        (⟨line, .sign "("⟩ :: rest)
        (fun l? => ∃ l, l? = some l ∧ NamedField.IsList t line "[" "]" [typeParam r] l) := by
      unfold typeParams?
      refine .ifAt (Reads.expect.bind fun opening hopening =>
        (reads_paramList _ false (by simp)).bind fun fs hfs =>
          Reads.expect.bind fun closing hclosing => ?_)
      rw [if_neg (by cases hfs; simp)]
      exact .pure ⟨_, rfl, .mk hopening hfs hclosing⟩
    simp only [FunctionHead.lexemes, Item.on_cons, Item.on_append, Item.on_nil, List.cons_append,
      List.append_assoc, List.nil_append]
    refine .ifNotAt (by simp) ?_
    rw [pure_bind]
    refine Reads.name.bind fun m hm => hsome.bind ?_
    rintro _ ⟨l, rfl, hl⟩
    exact h _ _ _ (.generic hm hl)

/-- A function is read. -/
theorem reads_functionDecl (head : FunctionHead) (ps : List NamedField) (result : TypeShape)
    (v : ValueShape) :
    Reads t (functionDecl (ofDepth (d + 9)))
      (Item.ofLines line (DeclShape.function head ps result v).lines ++ rest) rest
      (DeclShape.IsTree t line (.function head ps result v)) := by
  unfold functionDecl DeclShape.lines
  simp only [Item.ofLines_cons, Item.ofLines_nil, Item.on_cons, Item.on_append, Item.on_nil,
    List.cons_append, List.append_assoc, List.nil_append]
  refine Reads.current.bind fun token _ => Reads.expect.bind fun start hstart =>
    reads_functionHead head fun receiver? n generic? hhead => ?_
  refine (reads_params ps true).bind fun l hl => (reads_results? result rfl).bind ?_
  rintro _ ⟨rs, rfl, hrs⟩
  have hbody := @reads_functionBody t line d (⟨line + 2, .semicolon false⟩ :: rest) v
  simp only [Item.on_cons, Item.on_append, Item.on_nil, List.cons_append, List.append_assoc,
    List.nil_append] at hbody
  refine .ifAt (hbody.bind ?_)
  rintro _ ⟨opening, begins, ends, x, closing, hopening, hbegins, hx, hclosing, rfl⟩
  exact Reads.finish.bind fun _ _ =>
    .pure (.function hstart hhead hl hrs hopening hbegins hx hclosing)

/-! ## Types and variables -/

/-- A declaration of a single item without parentheses is read. -/
theorem reads_general {keyword : String} {spec : Reading Spec} {after : List Item}
    {post : Spec → Prop} (h : Reads t spec (i :: before) after post)
    (hi : i.lexeme ≠ .sign "(") :
    Reads t (general keyword spec) (⟨line, .sign keyword⟩ :: i :: before) after
      (fun decl => ∃ documented start s, t.Has line keyword start ∧ post s ∧
        decl = .general documented ⟨start, s.stop⟩ keyword 0 [s] 0) := by
  unfold general
  refine Reads.current.bind fun token _ => Reads.expect.bind fun start hstart =>
    Reads.current.bind fun token' ht' => ?_
  rw [ht'.lexeme, if_neg (by simpa using hi)]
  exact h.bind fun s hs => .pure ⟨_, start, s, hstart, hs, rfl⟩

/-- A generic type is read after its first type parameter. -/
theorem reads_genericFrom (body : TypeBody) {n : Name} {opening : Nat} {r : String} {q : Param}
    (hopening : t.Has line "[" opening) (hq : Param.IsTree t line (typeParam r) q) :
    Reads t (genericFrom (ofDepth (d + 4)) n opening q)
      (⟨line, .sign "]"⟩ :: (Item.on line [.sign body.keyword, .sign "\x7b"] ++
        (Item.ofLines (line + 1) body.rows ++
          ⟨line + 1 + body.rows.length, .sign "\x7d"⟩ :: rest))) rest
      (fun s => ∃ l x, NamedField.IsList t line "[" "]" [typeParam r] l ∧ body.IsTree t line x ∧
        s = .type n (some l) 0 x) := by
  have hnot : (Lexeme.sign body.keyword == Lexeme.sign "=") = false := by
    cases body <;> simp [TypeBody.keyword]
  have hbody := @reads_body t line d rest body
  unfold genericFrom
  refine (reads_paramList_single hq).bind fun fs hfs => Reads.expect.bind fun closing hclosing =>
    Reads.current.bind fun token ht => ?_
  dsimp only
  rw [ht.lexeme, hnot]
  exact hbody.bind fun x hx => .pure ⟨_, x, .mk hopening hfs hclosing, hx, rfl⟩

/-- A type parameter is not taken for the length of an array. -/
theorem reads_bracketedType (body : TypeBody) {n : Name} {r : String} :
    Reads t (bracketedType (ofDepth (d + 4)) n)
      (⟨line, .sign "["⟩ :: ⟨line, .name r⟩ :: ⟨line, .name "any"⟩ :: ⟨line, .sign "]"⟩ ::
        (Item.on line [.sign body.keyword, .sign "\x7b"] ++ (Item.ofLines (line + 1) body.rows ++
          ⟨line + 1 + body.rows.length, .sign "\x7d"⟩ :: rest))) rest
      (fun s => ∃ l x, NamedField.IsList t line "[" "]" [typeParam r] l ∧ body.IsTree t line x ∧
        s = .type n (some l) 0 x) := by
  -- The name of the parameter is taken for an expression first, which ends before the type.
  have hfirst : ∀ (m : Name) rest, Reads t (do
      (ofDepth (d + 4)).binary (some (← primaryFrom (ofDepth (d + 4)) (.ofName m))) 1)
      (⟨line, .name "any"⟩ :: rest) (⟨line, .name "any"⟩ :: rest) (· = .ofName m) := by
    intro m rest
    have hsuffix : Reads t (primaryFrom (ofDepth (d + 4)) (.ofName m))
        (⟨line, .name "any"⟩ :: rest) (⟨line, .name "any"⟩ :: rest) (· = .ofName m) :=
      Reads.fuel.bind fun k hk => .iterate_done (reads_suffix?_none _ rfl) hk
    refine hsuffix.bind ?_
    rintro _ rfl
    change Reads t (anyBinary (ofDepth (d + 3)) (some (.ofName m)) 1) _ _ _
    unfold anyBinary
    dsimp only
    rw [pure_bind]
    exact Reads.fuel.bind fun k hk => .iterate_done (reads_operation?_none Nat.one_pos _ rfl) hk
  unfold bracketedType
  refine Reads.expect.bind fun opening hopening => Reads.isAtName.bind fun b hb => ?_
  rw [hb]
  refine Reads.name.bind fun m hm => .ifNotAt (by simp) ((hfirst m _).deeper.bind ?_)
  rintro _ rfl
  -- A name alone can be a parameter, and the type after it shows that it is one.
  refine Reads.isAt.bind fun c _ => ?_
  have hsplit : splitParam? c (.ofName m) = some (m, none) := by
    rw [Expr.ofName, splitParam?]
  rw [hsplit]
  refine .ifNotAt (by simp) ?_
  exact (reads_paramFrom (p := typeParam r) true hm rfl).bind fun q hq =>
    reads_genericFrom body hopening hq

/-- A generic type is read. -/
theorem reads_typeDecl (n r : String) (body : TypeBody) :
    Reads t (general "type" (typeSpec (ofDepth (d + 4))))
      (Item.ofLines line (DeclShape.type n r body).lines ++ rest) rest
      (DeclShape.IsTree t line (.type n r body)) := by
  have hspec : Reads t (typeSpec (ofDepth (d + 4)))
      (⟨line, .name n⟩ :: ⟨line, .sign "["⟩ :: ⟨line, .name r⟩ :: ⟨line, .name "any"⟩ ::
        ⟨line, .sign "]"⟩ :: (Item.on line [.sign body.keyword, .sign "\x7b"] ++
          (Item.ofLines (line + 1) body.rows ++ ⟨line + 1 + body.rows.length, .sign "\x7d"⟩ ::
            ⟨line + 1 + body.rows.length, .semicolon false⟩ :: rest))) rest
      (fun s => ∃ m l x, Name.IsOn t line n m ∧
        NamedField.IsList t line "[" "]" [typeParam r] l ∧ body.IsTree t line x ∧
        s = .type m (some l) 0 x) := by
    unfold typeSpec
    refine Reads.name.bind fun m hm => .ifAt ((reads_bracketedType body).bind ?_)
    rintro _ ⟨l, x, hl, hx, rfl⟩
    exact Reads.finish.bind fun _ _ => .pure ⟨m, l, x, hm, hl, hx, rfl⟩
  have hparam : NamedField.listLexemes [typeParam r] = [.name r, .name "any"] := by
    simp [NamedField.listLexemes, Reads.separated, NamedField.lexemes, typeParam,
      TypeShape.lexemes, NamedType.first, NamedType.others]
  have hdecl := @reads_general t line _ _ "type" _ _ _ hspec (by simp)
  simp only [DeclShape.lines, hparam, Item.ofLines_cons, Item.ofLines_append, Item.ofLines_nil,
    Item.on_cons, Item.on_nil, List.cons_append, List.append_assoc, List.nil_append] at hdecl ⊢
  refine hdecl.weaken ?_
  rintro _ ⟨documented, start, _, hstart, ⟨m, l, x, hm, hl, hx, rfl⟩, rfl⟩
  exact .type hstart hm hl hx

/-- A variable is read. -/
theorem reads_varDecl (n : String) (s : TypeShape) (v : ValueShape) :
    Reads t (general "var" (bindingSpec (ofDepth (d + 7)) "var"))
      (Item.ofLines line (DeclShape.var n s v).lines ++ rest) rest
      (DeclShape.IsTree t line (.var n s v)) := by
  have hvalues : Reads t (initialValues (ofDepth (d + 7)))
      (⟨line, .sign "="⟩ :: (Item.on line v.lexemes ++ ⟨line, .semicolon false⟩ :: rest))
      (⟨line, .semicolon false⟩ :: rest) (fun xs => ∃ x, xs = [x] ∧ v.IsTree t line x) := by
    unfold initialValues
    exact .ifAt (Reads.advance.bind fun _ _ =>
      reads_exprs_of_unary (reads_unary_value v rfl) rfl (by simp))
  have htype : Reads t (ofDepth (d + 7)).type
      (Item.on line s.lexemes ++ ⟨line, .sign "="⟩ ::
        (Item.on line v.lexemes ++ ⟨line, .semicolon false⟩ :: rest))
      (⟨line, .sign "="⟩ :: (Item.on line v.lexemes ++ ⟨line, .semicolon false⟩ :: rest))
      (s.IsTree t line) := reads_type s rfl
  have hspec : Reads t (bindingSpec (ofDepth (d + 7)) "var")
      (⟨line, .name n⟩ :: (Item.on line s.lexemes ++ ⟨line, .sign "="⟩ ::
        (Item.on line v.lexemes ++ ⟨line, .semicolon false⟩ :: rest))) rest
      (fun spec => ∃ m x y, Name.IsOn t line n m ∧ s.IsTree t line x ∧ v.IsTree t line y ∧
        spec = .bindings [m] (some x) [y] false) := by
    -- A name or a star stands after the name of the variable, which is no equals sign.
    obtain ⟨starred, b⟩ := s
    unfold bindingSpec
    refine Reads.fuel.bind fun k hk => ?_
    cases starred
    all_goals
      refine (Reads.series_one Reads.name (by simp) (Nat.zero_lt_of_lt hk)).bind ?_
      rintro _ ⟨m, rfl, hm⟩
      refine .ifNotAt (by simp) (htype.bind fun x hx => ?_)
      rw [pure_bind]
      refine hvalues.bind ?_
      rintro _ ⟨y, rfl, hy⟩
      rw [pure_bind]
      refine Reads.finish.bind ?_
      rintro _ rfl
      exact .pure ⟨m, x, y, hm, hx, hy, rfl⟩
  have hdecl := @reads_general t line _ _ "var" _ _ _ hspec (by simp)
  simp only [DeclShape.lines, Item.ofLines_cons, Item.ofLines_nil, Item.on_cons, Item.on_append,
    Item.on_nil, List.cons_append, List.append_assoc, List.nil_append]
  refine hdecl.weaken ?_
  rintro _ ⟨documented, start, _, hstart, ⟨m, x, y, hm, hx, hy, rfl⟩, rfl⟩
  exact .var hstart hm hx hy

/-- A declaration is read. -/
theorem reads_decl (s : DeclShape) :
    Reads t (anyDecl (ofDepth (d + 9))) (Item.ofLines line s.lines ++ rest) rest
      (s.IsTree t line) := by
  unfold anyDecl
  cases s with
  | type n r body =>
    refine Reads.lexeme.bind ?_
    rintro _ rfl
    exact reads_typeDecl n r body
  | var n s v =>
    refine Reads.lexeme.bind ?_
    rintro _ rfl
    exact reads_varDecl n s v
  | function head ps result v =>
    refine Reads.lexeme.bind ?_
    rintro _ rfl
    exact reads_functionDecl head ps result v

/-! ## Imports -/

/-- The elements of an import, to the end of its line. -/
def pathLexemes (p : String) : List Lexeme := [.literal .text p, .semicolon false]

/-- An import is read. -/
theorem reads_pathSpec (p : String) :
    Reads t pathSpec (Item.on line (pathLexemes p) ++ rest) rest (IsImport t line p) := by
  unfold pathSpec pathLexemes
  refine Reads.current.bind fun token ht => ?_
  simp only [ht.lexeme, pure_bind]
  refine Reads.current.bind fun token' ht' => ?_
  rw [ht'.lexeme]
  refine Reads.advance.bind fun _ _ => Reads.finish.bind ?_
  rintro _ rfl
  exact .pure (.mk (ht'.place _ rfl))

/-- Imports in parentheses are read. -/
theorem reads_importDecl {paths : List String} (hpaths : paths ≠ []) :
    Reads t (general "import" pathSpec) (Item.ofLines line (importLexemes paths) ++ rest) rest
      (IsImports t line paths) := by
  have hspecs : ∀ last n,
      ((paths.zipIdx (line + 1)).flatMap (fun p => Item.on p.2 (pathLexemes p.1)) ++
        ⟨last, .sign ")"⟩ :: ⟨last, .semicolon false⟩ :: rest).length < n →
      Reads t (Reading.whileMore (do return !(← Reading.isAt ")")) pathSpec n)
        ((paths.zipIdx (line + 1)).flatMap (fun p => Item.on p.2 (pathLexemes p.1)) ++
          ⟨last, .sign ")"⟩ :: ⟨last, .semicolon false⟩ :: rest)
        (⟨last, .sign ")"⟩ :: ⟨last, .semicolon false⟩ :: rest)
        (List.Forall₂ (fun p s => IsImport t p.2 p.1 s) (paths.zipIdx (line + 1))) := by
    intro last n hn
    refine Reads.whileMore ?_ (fun p _ rest => reads_pathSpec p.1) ?_ ?_ hn
    · exact fun p _ rest => Reads.isAt.bind fun b hb => .pure (by rw [hb]; rfl)
    · exact fun p _ => List.cons_ne_nil _ _
    · exact Reads.isAt.bind fun b hb => .pure (by rw [hb]; rfl)
  have hlines : importLexemes paths = [.sign "import", .sign "("] ::
      (paths.map pathLexemes ++ [[.sign ")", .semicolon false]]) := by
    cases paths with
    | nil => exact absurd rfl hpaths
    | cons p paths => rfl
  rw [hlines]
  unfold general
  simp only [Item.ofLines_cons, Item.ofLines_append, Item.ofLines_nil, Item.ofLines_map,
    Item.on_cons, Item.on_nil, List.length_map, List.cons_append, List.append_assoc,
    List.nil_append]
  refine Reads.current.bind fun token _ => Reads.expect.bind fun start hstart =>
    Reads.current.bind fun token' ht' => ?_
  rw [ht'.lexeme, if_pos (beq_self_eq_true _)]
  exact Reads.advance.bind fun _ _ => Reads.fuel.bind fun n hn =>
    (hspecs _ n hn).bind fun specs hspecs => Reads.expect.bind fun closing hclosing =>
      Reads.finish.bind fun _ _ => .pure (.mk hstart (ht'.place _ rfl) hspecs hclosing)

/-! ## Files -/

/-- The elements of declarations, each of which begins on a line. -/
def declItems (ss : List (DeclShape × Nat)) : List Item :=
  ss.flatMap fun s => Item.ofLines s.2 s.1.lines

/-- The trees of declarations, each of which begins on a line. -/
def AreDecls (t : LineTable) : List (DeclShape × Nat) → List Decl → Prop :=
  List.Forall₂ fun s decl => s.1.IsTree t s.2 decl

/-- Declarations are read one after the other to the end of a file. -/
theorem reads_decls (ss : List (DeclShape × Nat)) {last n : Nat}
    (hn : (declItems ss ++ [Item.mk last .finish]).length < n) (imports : Bool) :
    Reads t (decls (ofDepth (d + 9)) n imports) (declItems ss ++ [Item.mk last .finish])
      [Item.mk last .finish] (AreDecls t ss) := by
  -- `n` bounds the elements ahead, of which each declaration takes at least its first sign.
  induction ss generalizing n imports with
  | nil =>
    cases n with
    | zero => exact absurd hn (Nat.not_lt_zero _)
    | succ n =>
      rw [decls]
      refine Reads.lexeme.bind ?_
      rintro _ rfl
      exact .pure .nil
  | cons s ss ih =>
    cases n with
    | zero => exact absurd hn (Nat.not_lt_zero _)
    | succ n =>
      obtain ⟨s, l⟩ := s
      obtain ⟨k, ls, lss, hlines, hk⟩ := s.exists_lines_eq_cons
      have hread : ∀ rest, Reads t (anyDecl (ofDepth (d + 9))) (Item.ofLines l s.lines ++ rest)
          rest (s.IsTree t l) := fun rest => reads_decl s
      have hrest : (declItems ss ++ [Item.mk last .finish]).length < n := by
        simp only [declItems, List.flatMap_cons, hlines, Item.ofLines_cons, Item.on_cons,
          List.length_append, List.length_cons] at hn ⊢
        omega
      rw [decls, declItems, List.flatMap_cons, List.append_assoc]
      rw [hlines, Item.ofLines_cons, Item.on_cons] at hread ⊢
      simp only [List.cons_append] at hread ⊢
      refine Reads.lexeme.bind fun l hl => ?_
      rw [hl]
      refine Reads.isAt.bind fun b hb => ?_
      have hnot : b = false := by
        rw [hb]
        simpa using hk
      subst hnot
      exact (hread _).bind fun decl hdecl => (ih hrest false).bind fun _ hdecls =>
        .pure (.cons hdecl hdecls)

/-- The trees of imports, which are left out when there is nothing to import. -/
inductive AreImports (t : LineTable) (line : Nat) : List String → List Decl → Prop
  | nil : AreImports t line [] []
  | imports {paths : List String} {decl : Decl} : paths ≠ [] → IsImports t line paths decl →
      AreImports t line paths [decl]

/-- The imports and declarations of a file are read. -/
theorem reads_imports_decls (paths : List String) (ss : List (DeclShape × Nat)) {last n : Nat}
    (hn : (Item.ofLines line (importLexemes paths) ++
      (declItems ss ++ [Item.mk last .finish])).length < n) :
    Reads t (decls (ofDepth (d + 9)) n true)
      (Item.ofLines line (importLexemes paths) ++ (declItems ss ++ [Item.mk last .finish]))
      [Item.mk last .finish] (fun all => ∃ imports others, all = imports ++ others ∧
        AreImports t line paths imports ∧ AreDecls t ss others) := by
  cases paths with
  | nil => exact (reads_decls ss hn true).weaken fun all hall => ⟨[], all, rfl, .nil, hall⟩
  | cons p paths =>
    cases n with
    | zero => exact absurd hn (Nat.not_lt_zero _)
    | succ n =>
      have hrest : (declItems ss ++ [Item.mk last .finish]).length < n := by
        simp only [importLexemes, Item.ofLines_cons, List.length_append, Item.length_on,
          List.length_cons] at hn ⊢
        omega
      have hdecl : Reads t (anyDecl (ofDepth (d + 9)))
          (Item.ofLines line (importLexemes (p :: paths)) ++ (declItems ss ++ [Item.mk last .finish]))
          (declItems ss ++ [Item.mk last .finish]) (IsImports t line (p :: paths)) := by
        unfold anyDecl
        refine Reads.lexeme.bind ?_
        rintro _ rfl
        exact reads_importDecl (List.cons_ne_nil p paths)
      -- Imports may follow an import, though none does.
      rw [decls]
      refine Reads.lexeme.bind fun l hl => ?_
      rw [hl]
      refine Reads.isAt.bind fun b hb => ?_
      subst hb
      exact hdecl.bind fun decl hdecl => (reads_decls ss hrest true).bind fun others hothers =>
        .pure ⟨[decl], others, rfl, .imports (List.cons_ne_nil p paths) hdecl, hothers⟩

/-- The trees of a file: its package clause, its imports and its declarations, each on its line. -/
structure SourceTree.IsTree (t : LineTable) (line : Nat) (package : String) (importLine : Nat)
    (paths : List String) (ss : List (DeclShape × Nat)) (tree : SourceTree) : Prop where
  /-- The package clause. -/
  start : t.Has line "package" tree.start
  /-- The package. -/
  name : tree.name.IsOn t line package
  /-- The imports and the declarations. -/
  decls : ∃ imports others, tree.decls = imports ++ others ∧
    AreImports t importLine paths imports ∧ AreDecls t ss others

/-- A file is read. -/
theorem reads_file (package : String) {importLine : Nat} (paths : List String)
    (ss : List (DeclShape × Nat)) (last : Nat) :
    Reads t (SourceTree.read (ofDepth (d + 9)))
      (Item.on line [.sign "package", .name package, .semicolon false] ++
        (Item.ofLines importLine (importLexemes paths) ++ (declItems ss ++ [Item.mk last .finish])))
      [Item.mk last .finish] (SourceTree.IsTree t line package importLine paths ss) := by
  unfold SourceTree.read
  exact Reads.expect.bind fun _ hstart => Reads.name.bind fun _ hname =>
    Reads.finish.bind fun _ _ => Reads.fuel.bind fun n hn =>
      (reads_imports_decls paths ss hn).bind fun _ hdecls => .pure ⟨hstart, hname, hdecls⟩

end NodeFamily.Layout
