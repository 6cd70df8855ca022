import NodeFamily.Proofs.Layout.TypeWriting

/-!
# Writing the values of a file

The pen writes the values of an emitted file on one line (`draws_value`): the null pointer as a
pointer of a type, the call of a visitor's method, and the address of a literal whose fields stand
in a row.
-/

namespace NodeFamily.Layout

open Writing

variable {t : LineTable} {cs : List WaitingGroup} {line d depth : Nat}

/-! ## Rows -/

/-- Expressions in a row are written with commas between them. -/
theorem adds_row {ι : Type} {pen : Pen} {text : ι → String} {ps : List ι} {xs : List Expr}
    (h : List.Forall₂ (fun p x => Inks t cs line (pen.exprAt x depth) (text p) ∧
      t.IsOn line x.start) ps xs) (hquiet : QuietOn t cs line) (index : Nat) :
    Adds t cs line (Pen.row pen depth index xs) (commas index (ps.map text)) () := by
  induction h generalizing index with
  | nil => exact .pure
  | @cons p x ps xs hx hxs ih =>
    have hitem := hx.1.adds.seq (ih (index + 1))
    unfold Pen.row
    rw [List.map_cons, commas]
    by_cases hindex : index = 0
    · subst hindex
      simpa [String.append_assoc] using hitem
    · have hcomma : Adds t cs line (signAt x.start ",") "," () :=
        (Inks.signOn hx.2 hquiet (by decide) (by simp [Page.isBreak]) rfl).adds
      have htext : "," ++ (" " ++ text p ++ commas (index + 1) (ps.map text)) =
          ", " ++ text p ++ commas (index + 1) (ps.map text) := by
        rw [show ", " = "," ++ " " from rfl]
        simp only [String.append_assoc]
      have h := (hcomma.seq ((Adds.blank hx.1).pair (ih (index + 1)))).of_eq htext
      simpa [hindex, Nat.pos_of_ne_zero hindex] using h

/-- Expressions on the line of what stands before them are written in a row. -/
theorem adds_exprs {ι : Type} {pen : Pen} {text : ι → String} {ps : List ι} {xs : List Expr}
    {prev : Nat} (next : Nat) (terminated flat : Bool)
    (h : List.Forall₂ (fun p x => Inks t cs line (pen.exprAt x depth) (text p) ∧
      x.LiesOn t line) ps xs) (hprev : t.IsOn line prev) (hquiet : QuietOn t cs line) :
    Adds t cs line (Pen.exprs pen prev xs depth terminated flat next)
      (", ".intercalate (ps.map text)) () := by
  have hitems : List.Forall₂ (fun p x => Inks t cs line (pen.exprAt x depth) (text p) ∧
      t.IsOn line x.start) ps xs :=
    h.imp fun p x hx => ⟨hx.1, hprev.isLine, hx.2.isPosition, hx.2.start⟩
  have hrow := adds_row hitems hquiet 0
  rw [commas_zero] at hrow
  have hmem : ∀ x ∈ xs, x.LiesOn t line := by
    clear hrow hitems
    induction h with
    | nil => simp
    | cons hx _ ih => exact List.forall_mem_cons.2 ⟨hx.2, ih⟩
  cases xs with
  | nil =>
    cases h
    exact .pure
  | cons x xs =>
    -- The row starts on the line of what stands before it, and ends there.
    have hlast : t.line (((x :: xs).getLast?.map Expr.stop).getD 0) = line := by
      rw [List.getLast?_eq_some_getLast (List.cons_ne_nil x xs)]
      exact (hmem _ (List.getLast_mem _)).stop
    have hplace : (t.place prev).line = line := hprev.line_eq
    have hvalid : (t.place prev).isValid = true := by
      rw [Place.isValid, hplace]
      exact decide_eq_true hprev.isLine
    unfold Pen.exprs
    refine .get fun p hp => ?_
    dsimp only
    rw [hp, hlast, (hmem x List.mem_cons_self).start, hplace, hvalid]
    simpa using hrow

/-! ## Values -/

namespace ValueShape

/-- The text of a key and its value. -/
def pairText (p : String × String) : String := p.1 ++ ": " ++ p.2

/-- The text of a value. -/
def text : ValueShape → String
  | null n => "(*" ++ n ++ "[any])(nil)"
  | visit m => "visitor." ++ m ++ "(e)"
  | literal n r ps =>
    "&" ++ n ++ "[" ++ r ++ "]\x7b" ++ ", ".intercalate (ps.map pairText) ++ "\x7d"

/-- A key and its value lie on their line. -/
theorem IsPair.liesOn {p : String × String} {x : Expr} (h : IsPair t line p x) :
    x.LiesOn t line := by
  obtain ⟨hkey, -, hvalue⟩ := h
  exact ⟨hkey.liesOn.isPosition, hkey.liesOn.start, hvalue.liesOn.stop⟩

/-- A key and its value are written. -/
theorem inks_pair {p : String × String} {x : Expr} (hx : IsPair t line p x)
    (hquiet : QuietOn t cs line) :
    Inks t cs line ((Pen.ofDepth (d + 2)).exprAt x depth) (pairText p) := by
  obtain ⟨hkey, hcolon, hvalue⟩ := hx
  have h := (Inks.name (d := d) 0 1 hkey hquiet).seq
    ((Inks.sign hcolon hquiet rfl).seq
      (.blank (Inks.name (d := d) 0 1 hvalue hquiet))).adds
  refine .goTo hkey.place.isOn (h.of_eq ?_)
  rw [pairText, show ": " = ":" ++ " " from rfl]
  simp only [String.append_assoc]

/-- A name in parentheses is written as the arguments of a call. -/
theorem adds_argument (depth : Nat) {n : String} {m : Name} {opening closing : Nat}
    (hopening : t.Has line "(" opening) (hm : m.IsOn t line n) (hclosing : t.Has line ")" closing)
    (hquiet : QuietOn t cs line) :
    Adds t cs line (do
      signAt opening "("
      Pen.exprs (Pen.ofDepth (d + 1)) opening [.ofName m] depth true false closing
      signAt closing ")") ("(" ++ (n ++ ")")) () := by
  have hlist : List.Forall₂
      (fun p x => Inks t cs line ((Pen.ofDepth (d + 1)).exprAt x depth) (id p) ∧ x.LiesOn t line)
      [n] [.ofName m] := .cons ⟨Inks.name 0 depth hm hquiet, hm.liesOn⟩ .nil
  have hargs := adds_exprs closing true false hlist hopening.isOn hquiet
  simp only [List.map_cons, List.map_nil, id, String.intercalate_singleton] at hargs
  exact (Inks.sign hopening hquiet rfl).adds.seq
    (hargs.seq (Inks.sign hclosing hquiet rfl).adds)

/-- The null pointer as a pointer of a type is written. -/
theorem inks_null {n : String} {x : Expr} (hx : (null n).IsTree t line x)
    (hquiet : QuietOn t cs line) :
    Inks t cs line ((Pen.ofDepth (d + 5)).exprAt x depth) (null n).text := by
  cases hx with
  | @null _ start closing opening' closing' x m hstart hx hclosing hopening' hm hclosing' =>
    have hgroup : Pen.isGroup x = false := by
      cases hx with
      | star => rfl
    have hfits : (NamedType.applied n "any").Fits cs := trivial
    have htype := inks_type (d := d) (max 1 (depth - 1)) (s := ⟨true, _⟩) hfits hx hquiet
    have hopening : Inks t cs line (goTo start >>= fun _ => sign "(") "(" :=
      .sign hstart hquiet rfl
    have hgroup := hopening.pair (htype.adds.seq (Inks.sign hclosing hquiet rfl).adds)
    have hinner : Inks t cs line
        ((Pen.ofDepth (d + 4)).expr (.node ⟨start, closing + 1⟩ (.group x closing))
          highestPrecedence depth)
        ("(" ++ ((⟨true, .applied n "any"⟩ : TypeShape).text ++ ")")) := by
      cases hx with
      | star => exact hgroup
    have hargs := adds_argument (d := d + 3) depth hopening' hm hclosing' hquiet
    refine .goTo hstart.isOn ((hinner.seq hargs).of_eq (String.toList_inj.1 ?_))
    simp [text, TypeShape.text, NamedType.text]

/-- The call of a visitor's method is written. -/
theorem inks_visit {n : String} {x : Expr} (hx : (visit n).IsTree t line x)
    (hquiet : QuietOn t [] line) :
    Inks t [] line ((Pen.ofDepth (d + 5)).exprAt x depth) (visit n).text := by
  cases hx with
  | visit hx hopening hm hclosing =>
    cases hx with
    | @member _ _ p q hp hq =>
      have hargs := adds_argument (d := d + 3) depth hopening hm hclosing hquiet
      refine .goTo hp.place.isOn fun σ => ?_
      have hmember := draws_member (d := d + 3) σ depth true hp hq hquiet
      refine hmember.bind ?_
      have h := hargs σ (inkOf ("visitor" ++ "." ++ n))
      have htext : inkOf ("visitor" ++ "." ++ n) ++ inkOf ("(" ++ ("e" ++ ")")) =
          inkOf (visit n).text := by
        rw [← inkOf_append]
        refine congrArg inkOf (String.toList_inj.1 ?_)
        simp [text]
      rw [htext] at h
      exact h

/-- The end of a literal is written. -/
theorem adds_closing {closing : Nat} (hclosing : t.Has line "\x7d" closing)
    (hquiet : QuietOn t cs line) (extra : Bool) :
    Adds t cs line (do
      space .indent
      space .unindent
      toggle extra true
      signAt closing "\x7d"
      toggle extra true
      modify fun p => { p with level := p.level - 1 }) "\x7d" () := by
  intro σ a
  have hsign : Draws t cs (signAt closing "\x7d")
      (((σ.put line a).hold .indent).hold .unindent) () (σ.put line (a ++ inkOf "\x7d")) := by
    rw [← Sheet.put_indented_put]
    exact Draws.signAt hclosing.isOn hquiet hclosing.ne_empty hclosing.unbroken (.inl rfl)
  exact (Draws.space (.inr (by simp [Page.waitingLimit]))).seq
    ((Draws.space (.inr (by simp [Page.waitingLimit, Sheet.hold]))).seq
      ((Draws.toggle _ _).seq (hsign.seq ((Draws.toggle _ _).seq
        (Draws.alter fun _ hp => { hp with })))))

/-- The address of a literal is written after white space. -/
theorem draws_literal {n r : String} {ps : List (String × String)} {x : Expr} {σ : Sheet}
    (hx : (literal n r ps).IsTree t line x) (hquiet : QuietOn t cs line) (hσ : σ.waiting ≠ []) :
    Draws t cs ((Pen.ofDepth (d + 5)).exprAt x depth) σ ()
      (σ.put line (inkOf (literal n r ps).text)) := by
  cases hx with
  | @literal _ _ _ start opening closing x xs hstart hx hopening hxs hclosing =>
    have hfits : (NamedType.applied n r).Fits cs := trivial
    have hand : Draws t cs (goTo start >>= fun _ => sign "&") σ () (σ.put line (inkOf "&")) :=
      Draws.signAt hstart.isOn hquiet hstart.ne_empty hstart.unbroken (.inr ⟨rfl, hσ⟩)
    have htype := inks_base (d := d + 1) highestPrecedence depth hfits hx hquiet
    have hlist : List.Forall₂ (fun p x => Inks t cs line ((Pen.ofDepth (d + 3)).exprAt x 1)
        (pairText p) ∧ x.LiesOn t line) ps xs :=
      hxs.imp fun p x hx => ⟨inks_pair hx hquiet, hx.liesOn⟩
    have hpairs := adds_exprs closing true false hlist hopening.isOn hquiet
    have hlevel : Adds t cs line (modify fun p => { p with level := p.level + 1 }) "" () := by
      intro σ a
      rw [show inkOf "" = [] from rfl, List.append_nil]
      exact Draws.alter fun _ hp => { hp with }
    have hcomposite := Inks.goTo ⟨hstart.isLine, hx.liesOn.isPosition, hx.liesOn.start⟩
      (htype.seq (hlevel.seq ((Inks.sign hopening hquiet rfl).adds.seq
        (hpairs.seq (adds_closing hclosing hquiet (!xs.isEmpty))))))
    have h := hand.pair (hcomposite.adds σ _)
    have htext : inkOf "&" ++ inkOf ((NamedType.applied n r).text ++ ("" ++ ("\x7b" ++
        (", ".intercalate (ps.map pairText) ++ "\x7d")))) = inkOf (literal n r ps).text := by
      rw [← inkOf_append]
      refine congrArg inkOf (String.toList_inj.1 ?_)
      simp [text, NamedType.text]
    rw [htext] at h
    exact h

/-- A value is written after white space. -/
theorem draws_value (depth : Nat) {v : ValueShape} {x : Expr} {σ : Sheet}
    (hx : v.IsTree t line x) (hquiet : QuietOn t [] line) (hσ : σ.waiting ≠ []) :
    Draws t [] ((Pen.ofDepth (d + 5)).exprAt x depth) σ () (σ.put line (inkOf v.text)) := by
  cases v with
  | null n => exact inks_null hx hquiet σ
  | visit m => exact inks_visit hx hquiet σ
  | literal n r ps => exact draws_literal hx hquiet hσ

end ValueShape

end NodeFamily.Layout
