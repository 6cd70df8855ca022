import NodeFamily.Proofs.Layout.Shapes

/-!
# Reading the types of a file

The grammar reads the types that an emitted file is written with, and gives their trees: names,
names in a package and names with a type argument, each after a star or not (`reads_type`), lists of
parameters of such types (`reads_params`), and the interfaces and structs that are made of them
(`reads_body`). A grammar of a few levels is enough for each, and all that matters about what
follows a type is that it does not go on with it.
-/

namespace NodeFamily.Layout

open Grammar

variable {t : LineTable} {line d : Nat} {i : Item} {rest : List Item}

/-! ## Names of types -/

/-- Whether an element ends a type that it follows. -/
def Lexeme.endsType : Lexeme → Bool
  | .sign s => !(["[", ".", "|"].contains s)
  | _ => true

/-- What ends a type is no sign that goes on with it. -/
theorem ne_of_endsType {l : Lexeme} (h : l.endsType = true) {s : String}
    (hs : s ∈ ["[", ".", "|"]) : l ≠ .sign s := by
  rintro rfl
  simp [Lexeme.endsType] at h
  simp [h] at hs

/-- A type that may be there is there. -/
theorem reads_type_of_type? {g : Grammar} {before after : List Item} {post : Expr → Prop}
    (h : Reads t g.type? before after fun x? => ∃ x, x? = some x ∧ post x) :
    Reads t g.type before after post := by
  refine h.bind ?_
  rintro _ ⟨x, rfl, hx⟩
  exact .pure hx

/-- A name alone is read as a type. -/
theorem reads_type?_name {n : String} (h : i.lexeme.endsType = true) :
    Reads t (ofDepth (d + 1)).type? (⟨line, .name n⟩ :: i :: rest) (i :: rest)
      (fun x? => ∃ x, x? = some x ∧ ∃ m, Name.IsOn t line n m ∧ x = .ofName m) := by
  change Reads t (anyType? (ofDepth d)) _ _ _
  unfold anyType?
  refine Reads.current.bind fun token ht => ?_
  rw [ht.lexeme]
  refine Reads.name.bind fun m hm => Reads.bind ?_ fun x hx => .pure ⟨x, rfl, m, hm, hx⟩
  unfold namedTypeFrom typeNameFrom
  refine Reads.bind (P := (· = .ofName m)) (.ifNotAt (ne_of_endsType h (by simp)) (.pure rfl)) ?_
  rintro _ rfl
  exact .ifNotAt (ne_of_endsType h (by simp)) (.pure rfl)

/-- A type argument is read after its type. -/
theorem reads_typeArguments {arg : String} (base : Expr) :
    Reads t (typeArguments (ofDepth (d + 1)) base)
      (Item.on line [.sign "[", .name arg, .sign "]"] ++ rest) rest
      (fun x => ∃ opening a closing, t.Has line "[" opening ∧ Name.IsOn t line arg a ∧
        t.Has line "]" closing ∧ x = indexed base opening [.ofName a] closing) := by
  -- The arguments are a list of one type.
  have harg : ∀ x ∈ [arg], ∀ s rest, s = "," ∨ s = "]" →
      Reads t (ofDepth (d + 1)).type (Item.on line [Lexeme.name x] ++ ⟨line, .sign s⟩ :: rest)
        (⟨line, .sign s⟩ :: rest) (fun x' => ∃ m, Name.IsOn t line x m ∧ x' = .ofName m) := by
    rintro x - s rest hs
    refine reads_type_of_type? (reads_type?_name ?_)
    rcases hs with rfl | rfl <;> rfl
  have hargs : Reads t (do Reading.upTo "]" (ofDepth (d + 1)).type (← Reading.fuel))
      (Item.on line (Reads.separated (fun x => [Lexeme.name x]) [arg]) ++ ⟨line, .sign "]"⟩ :: rest)
      (⟨line, .sign "]"⟩ :: rest)
      (List.Forall₂ (fun x x' => ∃ m, Name.IsOn t line x m ∧ x' = .ofName m) [arg]) :=
    Reads.fuel.bind fun n hn => .upTo (by decide) harg (by simp) hn
  unfold typeArguments
  refine Reads.expect.bind fun opening hopening => hargs.deeper.bind fun as has =>
    Reads.expect.bind fun closing hclosing => ?_
  obtain ⟨_, rest, ⟨a, ha, rfl⟩, hrest, rfl⟩ := List.forall₂_cons_left_iff.1 has
  obtain rfl := List.forall₂_nil_left_iff.1 hrest
  exact .pure ⟨opening, a, closing, hopening, ha, hclosing, rfl⟩

/-- A type is read from its first name on. -/
theorem reads_namedTypeFrom {m : Name} {b : NamedType} (hm : m.IsOn t line b.first)
    (h : i.lexeme.endsType = true) :
    Reads t (namedTypeFrom (ofDepth (d + 1)) m) (Item.on line b.others ++ i :: rest) (i :: rest)
      (b.IsTree t line) := by
  unfold namedTypeFrom typeNameFrom
  cases b with
  | name n =>
    refine Reads.bind (P := (· = .ofName m))
      (.ifNotAt (ne_of_endsType h (by simp)) (.pure rfl)) ?_
    rintro _ rfl
    exact .ifNotAt (ne_of_endsType h (by simp)) (.pure (.name hm))
  | member p n =>
    refine Reads.bind (m := i :: rest) (P := NamedType.IsTree t line (.member p n))
      (.ifAt (Reads.advance.bind fun _ _ => Reads.name.bind fun m' hm' =>
        .pure (.member hm hm'))) fun x hx => ?_
    exact .ifNotAt (ne_of_endsType h (by simp)) (.pure hx)
  | applied n arg =>
    refine Reads.bind (P := (· = .ofName m)) (.ifNotAt (by simp) (.pure rfl)) ?_
    rintro _ rfl
    refine .ifAt ((reads_typeArguments _).weaken ?_)
    rintro _ ⟨opening, a, closing, hopening, ha, hclosing, rfl⟩
    exact .applied hm hopening ha hclosing

/-- A type without a star is read. -/
theorem reads_namedType? (b : NamedType) (h : i.lexeme.endsType = true) :
    Reads t (ofDepth (d + 2)).type? (⟨line, .name b.first⟩ :: (Item.on line b.others ++ i :: rest))
      (i :: rest) (fun x? => ∃ x, x? = some x ∧ b.IsTree t line x) := by
  change Reads t (anyType? (ofDepth (d + 1))) _ _ _
  unfold anyType?
  refine Reads.current.bind fun token ht => ?_
  rw [ht.lexeme]
  exact Reads.name.bind fun m hm => (reads_namedTypeFrom hm h).bind fun x hx =>
    .pure ⟨x, rfl, hx⟩

/-- A type is read, if it may be there. -/
theorem reads_type? (s : TypeShape) (h : i.lexeme.endsType = true) :
    Reads t (ofDepth (d + 3)).type? (Item.on line s.lexemes ++ i :: rest) (i :: rest)
      (fun x? => ∃ x, x? = some x ∧ s.IsTree t line x) := by
  obtain ⟨starred, b⟩ := s
  cases starred with
  | false =>
    refine (reads_namedType? b h).weaken ?_
    rintro _ ⟨x, rfl, hx⟩
    exact ⟨x, rfl, .plain hx⟩
  | true =>
    change Reads t (anyType? (ofDepth (d + 2))) _ _ _
    unfold anyType?
    refine Reads.current.bind fun token ht => ?_
    rw [ht.lexeme]
    refine Reads.advance.bind fun _ _ => ?_
    exact (reads_type_of_type? (reads_namedType? b h)).bind fun x hx =>
      .pure ⟨_, rfl, .star (ht.place _ rfl) hx⟩

/-- A type is read. -/
theorem reads_type (s : TypeShape) (h : i.lexeme.endsType = true) :
    Reads t (ofDepth (d + 3)).type (Item.on line s.lexemes ++ i :: rest) (i :: rest)
      (s.IsTree t line) :=
  reads_type_of_type? (reads_type? s h)

/-! ## Parameters -/

/-- A parameter that has both the name and the type of a field. -/
inductive Param.IsTree (t : LineTable) (line : Nat) : NamedField → Param → Prop
  | mk {n : String} {s : TypeShape} {m : Name} {x : Expr} : m.IsOn t line n → s.IsTree t line x →
      IsTree t line (n, s) (some m, some x)

/-- A type is a whole type set, when it ends there. -/
theorem reads_typeSetFrom {g : Grammar} (x : Expr) (h : i.lexeme.endsType = true) :
    Reads t (typeSetFrom g x) (i :: rest) (i :: rest) (· = x) := by
  unfold typeSetFrom
  refine Reads.fuel.bind fun n hn => Reads.iterate_done (Reads.current.bind fun token ht => ?_) hn
  rw [ht.lexeme, if_neg (by simpa using ne_of_endsType h (by simp))]
  exact .pure rfl

/-- A parameter with its type ends where its type does. -/
theorem reads_paramEnd {g : Grammar} (sets : Bool) {p : NamedField} {m : Name} {x : Expr}
    (hm : m.IsOn t line p.1) (hx : p.2.IsTree t line x) (h : i.lexeme.endsType = true) :
    Reads t (paramEnd g sets (some m, some x)) (i :: rest) (i :: rest) (Param.IsTree t line p) := by
  unfold paramEnd
  cases sets with
  | false => exact .pure (.mk hm hx)
  | true =>
    refine (reads_typeSetFrom x h).bind ?_
    rintro _ rfl
    exact .pure (.mk hm hx)

/-- The type of a parameter is read after its name. -/
theorem reads_paramFrom (sets : Bool) {p : NamedField} {m : Name} (hm : m.IsOn t line p.1)
    (h : i.lexeme.endsType = true) :
    Reads t (paramFrom (ofDepth (d + 3)) sets m) (Item.on line p.2.lexemes ++ i :: rest) (i :: rest)
      (Param.IsTree t line p) := by
  have htype : Reads t (do
      let x ← (ofDepth (d + 3)).type
      paramEnd (ofDepth (d + 3)) sets (some m, some x)) (Item.on line p.2.lexemes ++ i :: rest)
      (i :: rest) (Param.IsTree t line p) :=
    (reads_type p.2 h).bind fun x hx => reads_paramEnd sets hm hx h
  -- What comes after the name is a name or a star, and neither makes the parameter something else.
  obtain ⟨n, starred, b⟩ := p
  unfold paramFrom
  cases starred with
  | false =>
    refine Reads.lexeme.bind ?_
    rintro _ rfl
    exact htype
  | true =>
    refine Reads.lexeme.bind ?_
    rintro _ rfl
    exact htype

/-- A parameter is read. -/
theorem reads_param (sets : Bool) (p : NamedField) (h : i.lexeme.endsType = true) :
    Reads t (param (ofDepth (d + 3)) sets) (Item.on line p.lexemes ++ i :: rest) (i :: rest)
      (Param.IsTree t line p) := by
  unfold param
  refine Reads.lexeme.bind ?_
  rintro _ rfl
  exact Reads.name.bind fun m hm => reads_paramFrom sets hm h

/-- Parameters with names and types make up a field each. -/
theorem shareTypes_of_isTree {ps : List NamedField} {qs : List Param}
    (h : List.Forall₂ (Param.IsTree t line) ps qs) :
    ∃ fs, shareTypes [] qs = some fs ∧ List.Forall₂ (NamedField.IsTree t line) ps fs := by
  induction h with
  | nil => exact ⟨[], rfl, .nil⟩
  | cons hq _ ih =>
    cases hq with
    | mk hm hx =>
      obtain ⟨fs, hfs, htrees⟩ := ih
      exact ⟨_ :: fs, by simp [shareTypes, hfs], .cons (.mk hm hx) htrees⟩

/-- Fields without dots fit. -/
theorem dotsFit_of_isTree {dots : Bool} {ps : List NamedField} {fs : List Field}
    (h : List.Forall₂ (NamedField.IsTree t line) ps fs) : dotsFit dots fs = true := by
  induction h with
  | nil => rfl
  | @cons p f ps fs hf hfs ih =>
    cases hf with
    | mk hm hx =>
      cases hfs with
      | nil => simp [dotsFit, Field.type, hx.isDots]
      | cons _ _ => simp [dotsFit, Field.type, hx.isDots, ih]

/-- Parameters with names and types make up the fields of a list. -/
theorem paramFields?_of_isTree {ps : List NamedField} {qs : List Param}
    (h : List.Forall₂ (Param.IsTree t line) ps qs) (sets dots : Bool) :
    ∃ fs, paramFields? sets dots qs = some fs ∧ List.Forall₂ (NamedField.IsTree t line) ps fs := by
  obtain ⟨fs, hfs, htrees⟩ := shareTypes_of_isTree h
  refine ⟨fs, ?_, htrees⟩
  unfold paramFields?
  cases h with
  | nil =>
    obtain rfl := List.forall₂_nil_left_iff.1 htrees
    simp [dotsFit]
  | cons hq _ =>
    cases hq
    simp [hfs, dotsFit_of_isTree htrees]

/-- Parameters are read up to the sign that closes them. -/
theorem reads_paramList (ps : List NamedField) {closing : String} (dots : Bool)
    (hclosing : closing ∈ [")", "]"]) :
    Reads t (paramList (ofDepth (d + 3)) none closing dots)
      (Item.on line (NamedField.listLexemes ps) ++ ⟨line, .sign closing⟩ :: rest)
      (⟨line, .sign closing⟩ :: rest) (List.Forall₂ (NamedField.IsTree t line) ps) := by
  have hends : ∀ s, s = "," ∨ s = closing → (Lexeme.sign s).endsType = true := by
    simp only [List.mem_cons, List.not_mem_nil, or_false] at hclosing
    rintro s (rfl | rfl)
    · rfl
    · rcases hclosing with rfl | rfl <;> rfl
  have hne : closing ≠ "," := by
    rintro rfl
    exact absurd hclosing (by decide)
  have hitem : ∀ p ∈ ps, ∀ s rest, s = "," ∨ s = closing →
      Reads t (param (ofDepth (d + 3)) (closing == "]"))
        (Item.on line (NamedField.lexemes p) ++ ⟨line, .sign s⟩ :: rest) (⟨line, .sign s⟩ :: rest)
        (Param.IsTree t line p) :=
    fun p _ s rest hs => reads_param _ p (hends s hs)
  have hhead : ∀ p ∈ ps, ∃ l ls, NamedField.lexemes p = l :: ls ∧ l ≠ .sign closing :=
    fun p _ => ⟨.name p.1, p.2.lexemes, rfl, by simp⟩
  unfold paramList
  refine Reads.fuel.bind fun n hn => (Reads.upTo hne hitem hhead hn).bind fun qs hqs => ?_
  obtain ⟨fs, hfs, htrees⟩ := paramFields?_of_isTree hqs (closing == "]") dots
  dsimp only
  rw [hfs]
  exact .pure htrees

/-- A single type parameter that is read already makes up the list. -/
theorem reads_paramList_single {g : Grammar} {p : NamedField} {q : Param}
    (hq : Param.IsTree t line p q) :
    Reads t (paramList g (some q) "]" false) (⟨line, .sign "]"⟩ :: rest)
      (⟨line, .sign "]"⟩ :: rest) (List.Forall₂ (NamedField.IsTree t line) [p]) := by
  obtain ⟨fs, hfs, htrees⟩ := paramFields?_of_isTree (.cons hq .nil) ("]" == "]") false
  unfold paramList
  refine .ifNotAt (by simp) (.ifAt ?_)
  dsimp only
  rw [pure_bind, hfs]
  exact .pure htrees

/-- Parameters in parentheses are read. -/
theorem reads_params (ps : List NamedField) (dots : Bool) :
    Reads t (params (ofDepth (d + 3)) dots)
      (⟨line, .sign "("⟩ :: (Item.on line (NamedField.listLexemes ps) ++ ⟨line, .sign ")"⟩ :: rest))
      rest (NamedField.IsList t line "(" ")" ps) := by
  unfold params
  exact Reads.expect.bind fun _ hopening => (reads_paramList ps dots (by simp)).bind fun _ hfs =>
    Reads.expect.bind fun _ hclosing => .pure (.mk hopening hfs hclosing)

/-- A result without parentheses is read. -/
theorem reads_results? (s : TypeShape) (h : i.lexeme.endsType = true) :
    Reads t (results? (ofDepth (d + 3))) (Item.on line s.lexemes ++ i :: rest) (i :: rest)
      (fun l? => ∃ l, l? = some l ∧ s.IsResult t line l) := by
  -- The elements of a type begin with a star or a name, so that no bracket stands at the front.
  have hhead : ∃ first more, Item.on line s.lexemes ++ i :: rest = first :: more ∧
      first.lexeme ≠ .sign "(" := by
    obtain ⟨starred, b⟩ := s
    cases starred with
    | false => exact ⟨_, _, rfl, by simp⟩
    | true => exact ⟨_, _, rfl, by simp⟩
  have htype := @reads_type? t line d i rest s h
  obtain ⟨first, more, hitems, hne⟩ := hhead
  rw [hitems] at htype ⊢
  unfold results?
  refine .ifNotAt hne (htype.bind ?_)
  rintro _ ⟨x, rfl, hx⟩
  exact .pure ⟨_, rfl, .mk hx⟩

/-! ## Interfaces and structs -/

/-- A method of an interface is read. -/
theorem reads_method (m : MethodShape) :
    Reads t (method (ofDepth (d + 3))) (Item.on line m.lexemes ++ rest) rest (m.IsTree t line) := by
  unfold method MethodShape.lexemes
  simp only [Item.on_cons, Item.on_append, Item.on_nil, List.cons_append, List.append_assoc,
    List.nil_append]
  refine Reads.name.bind fun n hn => .ifAt ?_
  refine (reads_params [m.param] true).bind fun ps hps =>
    (reads_results? m.result rfl).bind ?_
  rintro _ ⟨rs, rfl, hrs⟩
  refine Reads.finish.bind ?_
  rintro _ rfl
  exact .pure (.mk hn hps hrs)

/-- A brace that closes something is no type. -/
theorem reads_type?_closing :
    Reads t (ofDepth (d + 1)).type? (⟨line, .sign "\x7d"⟩ :: rest) (⟨line, .sign "\x7d"⟩ :: rest)
      (· = none) := by
  change Reads t (anyType? (ofDepth d)) _ _ _
  unfold anyType?
  refine Reads.current.bind fun token ht => ?_
  rw [ht.lexeme]
  exact .pure rfl

/-- The methods of an interface are read up to the brace that closes it. -/
theorem reads_interfaceElements {last : Nat} (ms : List (MethodShape × Nat)) {n : Nat}
    (hn : (ms.flatMap (fun m => Item.on m.2 m.1.lexemes) ++ ⟨last, .sign "\x7d"⟩ :: rest).length <
      n) :
    Reads t (interfaceElements (ofDepth (d + 3)) n)
      (ms.flatMap (fun m => Item.on m.2 m.1.lexemes) ++ ⟨last, .sign "\x7d"⟩ :: rest)
      (⟨last, .sign "\x7d"⟩ :: rest)
      (List.Forall₂ (fun m f => MethodShape.IsTree t m.2 m.1 f) ms) := by
  -- A method begins with a name, and the closing brace is neither a name nor a type.
  induction ms generalizing n with
  | nil =>
    cases n with
    | zero => exact absurd hn (Nat.not_lt_zero _)
    | succ n =>
      have hnone : Reads t (interfaceElement? (ofDepth (d + 3))) (⟨last, .sign "\x7d"⟩ :: rest)
          (⟨last, .sign "\x7d"⟩ :: rest) (· = none) := by
        unfold interfaceElement?
        refine Reads.lexeme.bind ?_
        rintro _ rfl
        refine reads_type?_closing.bind ?_
        rintro _ rfl
        exact .pure rfl
      rw [interfaceElements]
      refine hnone.bind ?_
      rintro _ rfl
      exact .pure .nil
  | cons m ms ih =>
    cases n with
    | zero => exact absurd hn (Nat.not_lt_zero _)
    | succ n =>
      obtain ⟨m, l⟩ := m
      have hsome : ∀ rest, Reads t (interfaceElement? (ofDepth (d + 3)))
          (Item.on l m.lexemes ++ rest) rest
          (fun f? => ∃ f, f? = some f ∧ m.IsTree t l f) := by
        intro rest
        unfold interfaceElement?
        refine Reads.lexeme.bind ?_
        rintro _ rfl
        exact (reads_method m).bind fun f hf => .pure ⟨f, rfl, hf⟩
      have hrest : (ms.flatMap (fun m => Item.on m.2 m.1.lexemes) ++
          ⟨last, .sign "\x7d"⟩ :: rest).length < n := by
        simp only [List.flatMap_cons, MethodShape.lexemes, List.length_append, List.length_cons,
          Item.length_on] at hn ⊢
        omega
      rw [interfaceElements, List.flatMap_cons, List.append_assoc]
      refine (hsome _).bind ?_
      rintro _ ⟨f, rfl, hf⟩
      exact (ih hrest).bind fun _ hfs => .pure (.cons hf hfs)

/-- A field of a struct is read. -/
theorem reads_field (p : NamedField) :
    Reads t (field (ofDepth (d + 3))) (Item.on line (p.lexemes ++ [.semicolon false]) ++ rest) rest
      (p.IsTree t line) := by
  obtain ⟨n, s⟩ := p
  have htype : Reads t (ofDepth (d + 3)).type
      (Item.on line s.lexemes ++ ⟨line, .semicolon false⟩ :: rest)
      (⟨line, .semicolon false⟩ :: rest) (s.IsTree t line) := reads_type s rfl
  unfold field NamedField.lexemes
  simp only [Item.on_append, Item.on_cons, Item.on_nil, List.append_assoc, List.cons_append,
    List.nil_append]
  refine Reads.current.bind fun token ht => ?_
  rw [ht.lexeme]
  refine Reads.name.bind fun m hm => ?_
  -- Neither a name nor a star after the name of the field makes it something else.
  obtain ⟨starred, b⟩ := s
  cases starred
  all_goals
    refine Reads.lexeme.bind ?_
    rintro _ rfl
    refine htype.bind fun x hx => ?_
    rw [pure_bind]
    refine Reads.current.bind fun token' ht' => ?_
    simp only [ht'.lexeme, pure_bind]
    refine Reads.finish.bind ?_
    rintro _ rfl
    exact .pure (.mk hm hx)

/-- A struct or an interface is read as a type. -/
theorem reads_body (body : TypeBody) :
    Reads t (ofDepth (d + 4)).type
      (Item.on line [.sign body.keyword, .sign "\x7b"] ++ (Item.ofLines (line + 1) body.rows ++
        ⟨line + 1 + body.rows.length, .sign "\x7d"⟩ :: rest)) rest (body.IsTree t line) := by
  refine reads_type_of_type? ?_
  change Reads t (anyType? (ofDepth (d + 3))) _ _ _
  unfold anyType?
  refine Reads.current.bind fun token ht => ?_
  rw [ht.lexeme]
  cases body with
  | struct ps =>
    simp only [TypeBody.rows, Item.ofLines_map, List.length_map]
    refine Reads.bind (Q := fun x? => ∃ x, x? = some x ∧ _) ?_ fun x hx => .pure ⟨x, rfl, hx⟩
    unfold structType
    refine Reads.expect.bind fun start hstart => Reads.expect.bind fun opening hopening =>
      Reads.fuel.bind fun n hn => ?_
    refine (Reads.whileMore ?_ (fun p _ rest => reads_field p.1) ?_ ?_ hn).bind fun fs hfs =>
      Reads.expect.bind fun closing hclosing => .pure (.struct hstart hopening hfs hclosing)
    · intro p _ rest
      exact Reads.isAtName.bind fun b hb => Reads.isAt.bind fun c _ => .pure (by rw [hb]; rfl)
    · exact fun p _ => List.cons_ne_nil _ _
    · exact Reads.isAtName.bind fun b hb => Reads.isAt.bind fun c hc => .pure (by rw [hb, hc]; rfl)
  | interface ms =>
    simp only [TypeBody.rows, Item.ofLines_map, List.length_map]
    refine Reads.bind (Q := fun x? => ∃ x, x? = some x ∧ _) ?_ fun x hx => .pure ⟨x, rfl, hx⟩
    unfold interfaceType
    exact Reads.expect.bind fun start hstart => Reads.expect.bind fun opening hopening =>
      Reads.fuel.bind fun n hn => (reads_interfaceElements _ hn).bind fun fs hfs =>
        Reads.expect.bind fun closing hclosing => .pure (.interface hstart hopening hfs hclosing)

end NodeFamily.Layout
