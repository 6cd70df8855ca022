import NodeFamily.Proofs.Layout.TypeReading

/-!
# Reading the expressions of a file

The grammar reads the values that an emitted file is written with, and gives their trees
(`reads_value`). Each one is an operand with suffixes, and what follows it is never an operator, so
that all levels of binary operations pass it on as it is (`reads_expr_of_unary`).
-/

namespace NodeFamily.Layout

open Grammar

variable {t : LineTable} {line d : Nat} {i : Item} {before rest : List Item}

/-! ## Where an expression ends -/

/-- Whether an element ends an expression that it follows. -/
def Lexeme.endsExpr : Lexeme → Bool
  | .sign s => [")", "]", "\x7d", ",", ":"].contains s
  | .name _ | .semicolon _ => true
  | _ => false

/-- The signs that end an expression. -/
theorem eq_of_endsExpr {s : String} (h : (Lexeme.sign s).endsExpr = true) :
    s = ")" ∨ s = "]" ∨ s = "\x7d" ∨ s = "," ∨ s = ":" := by
  simpa [Lexeme.endsExpr] using h

/-- What ends an expression is no suffix of it. -/
theorem reads_suffix?_none {g : Grammar} (x : Expr) (h : i.lexeme.endsExpr = true) :
    Reads t (suffix? g x) (i :: rest) (i :: rest) (· = none) := by
  unfold suffix?
  refine Reads.lexeme.bind fun _ hl => ?_
  rw [hl]
  obtain ⟨_, l⟩ := i
  cases l with
  | name n => exact .pure rfl
  | semicolon w => exact .pure rfl
  | sign s => rcases eq_of_endsExpr h with rfl | rfl | rfl | rfl | rfl <;> exact .pure rfl
  | literal k t => exact absurd h Bool.false_ne_true
  | comment t => exact absurd h Bool.false_ne_true
  | finish => exact absurd h Bool.false_ne_true

/-- What ends an expression is no operator after it. -/
theorem reads_operation?_none {g : Grammar} {least : Nat} (hleast : 0 < least) (x : Expr)
    (h : i.lexeme.endsExpr = true) :
    Reads t (operation? g least x) (i :: rest) (i :: rest) (· = none) := by
  unfold operation?
  refine Reads.current.bind fun token ht => ?_
  rw [ht.lexeme]
  obtain ⟨_, l⟩ := i
  cases l with
  | name n => exact .pure rfl
  | semicolon w => exact .pure rfl
  | sign s =>
    -- An operator has a precedence of its own, which these signs have not.
    have hnone : precedence s = 0 ∧ (s == "=") = false := by
      rcases eq_of_endsExpr h with rfl | rfl | rfl | rfl | rfl <;> exact ⟨rfl, rfl⟩
    refine Reads.state.bind fun r _ => ?_
    dsimp only
    rw [hnone.1, hnone.2, Bool.false_and, Bool.false_and, if_neg Bool.false_ne_true,
      if_pos hleast]
    exact .pure rfl
  | literal k t => exact absurd h Bool.false_ne_true
  | comment t => exact absurd h Bool.false_ne_true
  | finish => exact absurd h Bool.false_ne_true

/-- The suffixes of an operand are read, however many steps there are left to take. -/
def ReadsSuffixes (t : LineTable) (g : Grammar) (x : Expr) (before after : List Item)
    (post : Expr → Prop) : Prop :=
  ∀ n, before.length < n → Reads t (Reading.iterate (suffix? g) n x) before after post

/-- An operand without a suffix is all there is. -/
theorem ReadsSuffixes.done {g : Grammar} {x : Expr} {post : Expr → Prop} (hx : post x)
    (h : i.lexeme.endsExpr = true) : ReadsSuffixes t g x (i :: rest) (i :: rest) post := by
  intro n hn
  refine (Reads.iterate_done (reads_suffix?_none x h) hn).weaken ?_
  rintro _ rfl
  exact hx

/-- One suffix is read before the others. -/
theorem ReadsSuffixes.step {g : Grammar} {x : Expr} {middle after : List Item}
    {mid post : Expr → Prop}
    (hstep : Reads t (suffix? g x) before middle (fun y? => ∃ y, y? = some y ∧ mid y))
    (hlt : middle.length < before.length)
    (hrest : ∀ y, mid y → ReadsSuffixes t g y middle after post) :
    ReadsSuffixes t g x before after post := by
  intro n hn
  exact Reads.iterate_step hstep hlt (fun y hy m hm => hrest y hy m hm) hn

/-- An operand without an operator after it is all there is. -/
theorem reads_binary_of_unary {post : Expr → Prop} {least : Nat} (hleast : 0 < least)
    (hx : Reads t (ofDepth d).unary before (i :: rest) post) (h : i.lexeme.endsExpr = true) :
    Reads t ((ofDepth (d + 1)).binary none least) before (i :: rest) post := by
  change Reads t (anyBinary (ofDepth d) none least) _ _ _
  unfold anyBinary
  refine hx.bind fun x hpost => Reads.fuel.bind fun n hn => ?_
  exact (Reads.iterate_done (reads_operation?_none hleast x h) hn).weaken fun y hy => hy ▸ hpost

/-- An operand is an expression. -/
theorem reads_expr_of_unary {post : Expr → Prop}
    (hx : Reads t (ofDepth d).unary before (i :: rest) post) (h : i.lexeme.endsExpr = true) :
    Reads t (ofDepth (d + 1)).expr before (i :: rest) post :=
  reads_binary_of_unary Nat.one_pos hx h

/-- An operand is a value. -/
theorem reads_value_of_unary {post : Expr → Prop}
    (hx : Reads t (ofDepth d).unary before (i :: rest) post) (h : i.lexeme.endsExpr = true) :
    Reads t (ofDepth (d + 1)).value before (i :: rest) post :=
  (reads_expr_of_unary hx h).asValue

/-- An operand is a list of expressions, when no comma follows it. -/
theorem reads_exprs_of_unary {post : Expr → Prop} {inValue : Bool}
    (hx : Reads t (ofDepth d).unary before (i :: rest) post) (h : i.lexeme.endsExpr = true)
    (hcomma : i.lexeme ≠ .sign ",") :
    Reads t ((ofDepth (d + 1)).exprs inValue) before (i :: rest)
      (fun xs => ∃ x, xs = [x] ∧ post x) := by
  unfold Grammar.exprs
  refine Reads.fuel.bind fun n hn => Reads.asValue ?_
  exact Reads.series_one (reads_expr_of_unary hx h) hcomma (Nat.zero_lt_of_lt hn)

/-! ## Names with suffixes -/

/-- A name with the suffixes after it is an operand. -/
theorem reads_unary_name {n : String} {after : List Item} {post : Expr → Prop}
    (h : ∀ m : Name, m.IsOn t line n →
      ReadsSuffixes t (ofDepth d) (.ofName m) before after post) :
    Reads t (ofDepth (d + 1)).unary (⟨line, .name n⟩ :: before) after post := by
  change Reads t (anyUnary (ofDepth d)) _ _ _
  unfold anyUnary
  refine Reads.current.bind fun token ht => ?_
  rw [ht.lexeme]
  have hname : Reads t (operand (ofDepth d)) (⟨line, .name n⟩ :: before) before
      (fun x => ∃ m : Name, m.IsOn t line n ∧ x = Expr.ofName m) := by
    unfold operand
    refine Reads.current.bind fun token ht => ?_
    rw [ht.lexeme]
    exact Reads.advance.bind fun _ _ => .pure ⟨⟨token.pos, n⟩, ⟨rfl, ht.place _ rfl⟩, rfl⟩
  refine hname.bind ?_
  rintro _ ⟨m, hm, rfl⟩
  exact Reads.fuel.bind fun n hn => h m hm n hn

/-- A name alone is an operand. -/
theorem reads_unary_plain {n : String} (h : i.lexeme.endsExpr = true) :
    Reads t (ofDepth (d + 1)).unary (⟨line, .name n⟩ :: i :: rest) (i :: rest)
      (fun x => ∃ m : Name, m.IsOn t line n ∧ x = Expr.ofName m) :=
  reads_unary_name fun m hm => .done ⟨m, hm, rfl⟩ h

/-- A type argument is a suffix. -/
theorem reads_suffix?_brackets {arg : String} (x : Expr) :
    Reads t (suffix? (ofDepth (d + 2)) x) (Item.on line [.sign "[", .name arg, .sign "]"] ++ rest)
      rest (fun y? => ∃ y, y? = some y ∧ ∃ opening a closing, t.Has line "[" opening ∧
        Name.IsOn t line arg a ∧ t.Has line "]" closing ∧
        y = indexed x opening [.ofName a] closing) := by
  have hvalue : Reads t (ofDepth (d + 2)).value
      (⟨line, .name arg⟩ :: ⟨line, .sign "]"⟩ :: rest) (⟨line, .sign "]"⟩ :: rest)
      (fun x => ∃ m : Name, m.IsOn t line arg ∧ x = Expr.ofName m) :=
    reads_value_of_unary (reads_unary_plain rfl) rfl
  have hmore : ∀ n, (⟨line, .sign "]"⟩ :: rest : List Item).length < n →
      Reads t (instanceTypes (ofDepth (d + 2)) n) (⟨line, .sign "]"⟩ :: rest)
        (⟨line, .sign "]"⟩ :: rest) (· = []) := by
    intro n hn
    cases n with
    | zero => exact absurd hn (Nat.not_lt_zero _)
    | succ n => exact .ifNotAt (by simp) (.pure rfl)
  have hbrackets : Reads t (bracketsFrom (ofDepth (d + 2)) x)
      (⟨line, .sign "["⟩ :: ⟨line, .name arg⟩ :: ⟨line, .sign "]"⟩ :: rest) rest
      (fun y => ∃ opening a closing, t.Has line "[" opening ∧ Name.IsOn t line arg a ∧
        t.Has line "]" closing ∧ y = indexed x opening [.ofName a] closing) := by
    unfold bracketsFrom
    refine Reads.expect.bind fun opening hopening => Reads.inBrackets fun r hlevel => ?_
    -- From here on the level is one higher, and it is set back after the closing bracket.
    refine Reads.isAt.bindBack fun b hb => ?_
    dsimp only
    rw [hb, if_neg (by simp)]
    refine hvalue.bindBack ?_
    rintro _ ⟨a, ha, rfl⟩
    refine Reads.isAt.bindBack fun b hb => ?_
    rw [hb, if_neg (by simp)]
    refine Reads.fuel.bindBack fun n hn => (hmore n hn).bindBack ?_
    rintro _ rfl
    refine Reads.expect.bindBack fun closing hclosing => ?_
    rw [pure_bind]
    exact Reads.setLevel hlevel ⟨opening, a, closing, hopening, ha, hclosing, rfl⟩
  unfold suffix?
  refine Reads.lexeme.bind ?_
  rintro _ rfl
  exact hbrackets.bind fun y hy => .pure ⟨y, rfl, hy⟩

/-- A call with one argument is a suffix. -/
theorem reads_suffix?_call {arg : String} (x : Expr) :
    Reads t (suffix? (ofDepth (d + 2)) x) (Item.on line [.sign "(", .name arg, .sign ")"] ++ rest)
      rest (fun y? => ∃ y, y? = some y ∧ ∃ opening a closing, t.Has line "(" opening ∧
        Name.IsOn t line arg a ∧ t.Has line ")" closing ∧
        y = .node ⟨x.start, closing + 1⟩ (.call x opening [.ofName a] 0 closing)) := by
  have hvalue : Reads t (ofDepth (d + 2)).value
      (⟨line, .name arg⟩ :: ⟨line, .sign ")"⟩ :: rest) (⟨line, .sign ")"⟩ :: rest)
      (fun x => ∃ m : Name, m.IsOn t line arg ∧ x = Expr.ofName m) :=
    reads_value_of_unary (reads_unary_plain rfl) rfl
  have hargs : Reads t (do arguments (ofDepth (d + 2)) (← Reading.fuel))
      (⟨line, .name arg⟩ :: ⟨line, .sign ")"⟩ :: rest) (⟨line, .sign ")"⟩ :: rest)
      (fun as => ∃ a : Name, a.IsOn t line arg ∧ as = ([Expr.ofName a], 0)) := by
    refine Reads.fuel.bind fun n hn => ?_
    cases n with
    | zero => exact absurd hn (Nat.not_lt_zero _)
    | succ n =>
      rw [arguments]
      refine .ifNotAt (by simp) (hvalue.bind ?_)
      rintro _ ⟨a, ha, rfl⟩
      refine Reads.current.bind fun token ht => ?_
      rw [ht.lexeme]
      exact .ifNotAt (by simp) (.ifAt (.pure ⟨a, ha, rfl⟩))
  unfold suffix?
  refine Reads.lexeme.bind ?_
  rintro _ rfl
  refine Reads.bind ?_ fun y hy => .pure ⟨y, rfl, hy⟩
  unfold callFrom
  refine Reads.expect.bind fun opening hopening => hargs.deeper.bind ?_
  rintro _ ⟨a, ha, rfl⟩
  exact Reads.expect.bind fun closing hclosing =>
    .pure ⟨opening, a, closing, hopening, ha, hclosing, rfl⟩

/-- A member is a suffix. -/
theorem reads_suffix?_member {g : Grammar} {n : String} (x : Expr) :
    Reads t (suffix? g x) (Item.on line [.sign ".", .name n] ++ rest) rest
      (fun y? => ∃ y, y? = some y ∧ ∃ m : Name, m.IsOn t line n ∧ y = memberOf x m) := by
  unfold suffix?
  refine Reads.lexeme.bind ?_
  rintro _ rfl
  refine Reads.advance.bind fun _ _ => Reads.isAtName.bind fun b hb => ?_
  rw [hb]
  exact Reads.name.bind fun m hm => .pure ⟨_, rfl, m, hm, rfl⟩

/-! ## Literals -/

/-- A key and its value are read. -/
theorem reads_element (p : String × String) (h : i.lexeme.endsExpr = true) :
    Reads t (element (ofDepth (d + 2)))
      (Item.on line (ValueShape.pairLexemes p) ++ i :: rest) (i :: rest)
      (ValueShape.IsPair t line p) := by
  have hvalue : ∀ {n : String} {i : Item} {rest : List Item}, i.lexeme.endsExpr = true →
      Reads t (elementValue (ofDepth (d + 2))) (⟨line, .name n⟩ :: i :: rest) (i :: rest)
        (fun x => ∃ m : Name, m.IsOn t line n ∧ x = Expr.ofName m) := by
    intro n i rest h
    unfold elementValue
    exact .ifNotAt (by simp) (reads_expr_of_unary (reads_unary_plain h) h)
  unfold element
  refine (hvalue rfl).bind ?_
  rintro _ ⟨key, hkey, rfl⟩
  refine Reads.current.bind fun token ht => ?_
  rw [ht.lexeme, if_pos (beq_self_eq_true _)]
  refine Reads.advance.bind fun _ _ => (hvalue h).bind ?_
  rintro _ ⟨value, hvalue, rfl⟩
  exact .pure (.mk hkey (ht.place _ rfl) hvalue)

/-- The keys and values of a literal are read in their braces. -/
theorem reads_elements (ps : List (String × String)) (x : Expr) :
    Reads t ((ofDepth (d + 3)).elements (some x))
      (⟨line, .sign "\x7b"⟩ :: (Item.on line (Reads.separated ValueShape.pairLexemes ps) ++
        ⟨line, .sign "\x7d"⟩ :: rest)) rest
      (fun y => ∃ opening xs closing, t.Has line "\x7b" opening ∧
        List.Forall₂ (ValueShape.IsPair t line) ps xs ∧ t.Has line "\x7d" closing ∧
        y = .node ⟨x.start, closing + 1⟩ (.composite (some x) opening xs closing)) := by
  have hitem : ∀ p ∈ ps, ∀ s rest, s = "," ∨ s = "\x7d" →
      Reads t (element (ofDepth (d + 2)))
        (Item.on line (ValueShape.pairLexemes p) ++ ⟨line, .sign s⟩ :: rest)
        (⟨line, .sign s⟩ :: rest) (ValueShape.IsPair t line p) := by
    intro p _ s rest hs
    apply reads_element
    rcases hs with rfl | rfl <;> rfl
  have hhead : ∀ p ∈ ps, ∃ l ls, ValueShape.pairLexemes p = l :: ls ∧ l ≠ .sign "\x7d" :=
    fun p _ => ⟨.name p.1, [.sign ":", .name p.2], rfl, by simp⟩
  have hall : Reads t (do Reading.upTo "\x7d" (element (ofDepth (d + 2))) (← Reading.fuel))
      (Item.on line (Reads.separated ValueShape.pairLexemes ps) ++ ⟨line, .sign "\x7d"⟩ :: rest)
      (⟨line, .sign "\x7d"⟩ :: rest) (List.Forall₂ (ValueShape.IsPair t line) ps) :=
    Reads.fuel.bind fun n hn => .upTo (by decide) hitem hhead hn
  change Reads t (compositeFrom (ofDepth (d + 2)) (some x)) _ _ _
  unfold compositeFrom
  exact Reads.expect.bind fun opening hopening => hall.deeper.bind fun xs hxs =>
    Reads.expect.bind fun closing hclosing =>
      .pure ⟨opening, xs, closing, hopening, hxs, hclosing, rfl⟩

/-- Keys and values are a suffix of what has type arguments. -/
theorem reads_suffix?_elements (ps : List (String × String)) (x : Expr) (opening : Nat)
    (indices : List Expr) (closing : Nat) :
    Reads t (suffix? (ofDepth (d + 3)) (indexed x opening indices closing))
      (⟨line, .sign "\x7b"⟩ :: (Item.on line (Reads.separated ValueShape.pairLexemes ps) ++
        ⟨line, .sign "\x7d"⟩ :: rest)) rest
      (fun y? => ∃ y, y? = some y ∧ ∃ opening' xs closing', t.Has line "\x7b" opening' ∧
        List.Forall₂ (ValueShape.IsPair t line) ps xs ∧ t.Has line "\x7d" closing' ∧
        y = .node ⟨(indexed x opening indices closing).start, closing' + 1⟩
          (.composite (some (indexed x opening indices closing)) opening' xs closing')) := by
  unfold suffix?
  refine Reads.lexeme.bind ?_
  rintro _ rfl
  refine Reads.state.bind fun r hr => ?_
  -- Outside of the head of a control statement a brace after a type opens a literal.
  have hopens : opensLiteral r.level (indexed x opening indices closing).ungrouped = true := by
    simpa [indexed, Expr.ungrouped, opensLiteral, Expr.form] using hr
  rw [hopens]
  exact (reads_elements ps _).bind fun y hy => .pure ⟨y, rfl, hy⟩

/-! ## Operands -/

/-- A name with a type argument is an operand. -/
theorem reads_unary_applied {n arg : String} (h : i.lexeme.endsExpr = true) :
    Reads t (ofDepth (d + 3)).unary
      (⟨line, .name n⟩ :: (Item.on line [.sign "[", .name arg, .sign "]"] ++ i :: rest))
      (i :: rest) (NamedType.IsTree t line (.applied n arg)) := by
  refine reads_unary_name fun m hm => .step (reads_suffix?_brackets _) (by simp) ?_
  rintro _ ⟨opening, a, closing, hopening, ha, hclosing, rfl⟩
  exact .done (.applied hm hopening ha hclosing) h

/-- An operand after a sign that stands before operands. -/
theorem reads_unary_star {after : List Item} {b : NamedType}
    (h : Reads t (ofDepth d).unary before after (b.IsTree t line)) :
    Reads t (ofDepth (d + 1)).unary (⟨line, .sign "*"⟩ :: before) after
      (TypeShape.IsTree t line ⟨true, b⟩) := by
  change Reads t (anyUnary (ofDepth d)) _ _ _
  unfold anyUnary
  refine Reads.current.bind fun token ht => ?_
  rw [ht.lexeme]
  exact Reads.advance.bind fun _ _ => h.bind fun x hx => .pure (.star (ht.place _ rfl) hx)

/-- A call of a method of the visitor is an operand. -/
theorem reads_unary_visit {m : String} (h : i.lexeme.endsExpr = true) :
    Reads t (ofDepth (d + 3)).unary (Item.on line (ValueShape.visit m).lexemes ++ i :: rest)
      (i :: rest) (ValueShape.IsTree t line (.visit m)) := by
  refine reads_unary_name fun v hv => .step (reads_suffix?_member _) (by simp) ?_
  rintro _ ⟨n, hn, rfl⟩
  refine .step (reads_suffix?_call _) (by simp) ?_
  rintro _ ⟨opening, a, closing, hopening, ha, hclosing, rfl⟩
  exact .done (.visit (.member hv hn) hopening ha hclosing) h

/-- The address of a literal of a generic type is an operand. -/
theorem reads_unary_literal {n r : String} (ps : List (String × String))
    (h : i.lexeme.endsExpr = true) :
    Reads t (ofDepth (d + 5)).unary (Item.on line (ValueShape.literal n r ps).lexemes ++ i :: rest)
      (i :: rest) (ValueShape.IsTree t line (.literal n r ps)) := by
  have hliteral : Reads t (ofDepth (d + 4)).unary
      (⟨line, .name n⟩ :: (Item.on line [.sign "[", .name r, .sign "]"] ++ ⟨line, .sign "\x7b"⟩ ::
        (Item.on line (Reads.separated ValueShape.pairLexemes ps) ++
          ⟨line, .sign "\x7d"⟩ :: i :: rest))) (i :: rest)
      (fun y => ∃ x opening xs closing, NamedType.IsTree t line (.applied n r) x ∧
        t.Has line "\x7b" opening ∧ List.Forall₂ (ValueShape.IsPair t line) ps xs ∧
        t.Has line "\x7d" closing ∧
        y = .node ⟨x.start, closing + 1⟩ (.composite (some x) opening xs closing)) := by
    refine reads_unary_name fun m hm => .step (reads_suffix?_brackets _) (by simp) ?_
    rintro _ ⟨opening, a, closing, hopening, ha, hclosing, rfl⟩
    refine .step (reads_suffix?_elements ps _ opening _ closing) ?_ ?_
    · simp only [List.length_cons, List.length_append]
      omega
    · rintro _ ⟨opening', xs, closing', hopening', hxs, hclosing', rfl⟩
      exact .done ⟨_, opening', xs, closing', .applied hm hopening ha hclosing, hopening', hxs,
        hclosing', rfl⟩ h
  change Reads t (anyUnary (ofDepth (d + 4))) _ _ _
  unfold anyUnary
  simp only [ValueShape.lexemes, Item.on_cons, Item.on_append, Item.on_nil, List.cons_append,
    List.append_assoc, List.nil_append]
  refine Reads.current.bind fun token ht => ?_
  rw [ht.lexeme]
  refine Reads.advance.bind fun _ _ => hliteral.bind ?_
  rintro _ ⟨x, opening, xs, closing, hx, hopening, hxs, hclosing, rfl⟩
  exact .pure (.literal (ht.place _ rfl) hx hopening hxs hclosing)

/-- The null pointer as a pointer to a generic type is an operand. -/
theorem reads_unary_null {n : String} (h : i.lexeme.endsExpr = true) :
    Reads t (ofDepth (d + 6)).unary (Item.on line (ValueShape.null n).lexemes ++ i :: rest)
      (i :: rest) (ValueShape.IsTree t line (.null n)) := by
  -- In parentheses a pointer type is read as an expression that begins with a star.
  have hinner : ∀ rest, Reads t (ofDepth (d + 5)).value
      (⟨line, .sign "*"⟩ :: ⟨line, .name n⟩ ::
        (Item.on line [.sign "[", .name "any", .sign "]"] ++ ⟨line, .sign ")"⟩ :: rest))
      (⟨line, .sign ")"⟩ :: rest) (TypeShape.IsTree t line ⟨true, .applied n "any"⟩) :=
    fun rest => reads_value_of_unary (reads_unary_star (reads_unary_applied rfl)) rfl
  have hgroup : ∀ rest, Reads t (operand (ofDepth (d + 5)))
      (⟨line, .sign "("⟩ :: ⟨line, .sign "*"⟩ :: ⟨line, .name n⟩ ::
        (Item.on line [.sign "[", .name "any", .sign "]"] ++ ⟨line, .sign ")"⟩ :: rest))
      rest (fun y => ∃ start x closing, t.Has line "(" start ∧
        TypeShape.IsTree t line ⟨true, .applied n "any"⟩ x ∧ t.Has line ")" closing ∧
        y = .node ⟨start, closing + 1⟩ (.group x closing)) := by
    intro rest
    unfold operand
    refine Reads.current.bind fun token ht => ?_
    rw [ht.lexeme]
    exact Reads.advance.bind fun _ _ => (hinner rest).deeper.bind fun x hx =>
      Reads.expect.bind fun closing hclosing => .pure ⟨_, x, closing, ht.place _ rfl, hx, hclosing, rfl⟩
  change Reads t (anyUnary (ofDepth (d + 5))) _ _ _
  unfold anyUnary
  refine Reads.current.bind fun token ht => ?_
  rw [ht.lexeme]
  refine (hgroup _).bind ?_
  rintro _ ⟨start, x, closing, hstart, hx, hclosing, rfl⟩
  refine Reads.fuel.bind fun k hk => ReadsSuffixes.step (reads_suffix?_call _) (by simp) ?_ k hk
  rintro _ ⟨opening', m, closing', hopening', hm, hclosing', rfl⟩
  exact .done (.null hstart hx hclosing hopening' hm hclosing') h

/-- A value is an operand. -/
theorem reads_unary_value (v : ValueShape) (h : i.lexeme.endsExpr = true) :
    Reads t (ofDepth (d + 6)).unary (Item.on line v.lexemes ++ i :: rest) (i :: rest)
      (v.IsTree t line) := by
  cases v with
  | null n => exact reads_unary_null h
  | visit m => exact reads_unary_visit h
  | literal n r ps => exact reads_unary_literal ps h

end NodeFamily.Layout
