import NodeFamily.Layout.Pen.Decl
import NodeFamily.Proofs.Layout.Shapes
import NodeFamily.Proofs.Layout.Sheet

/-!
# Writing the types of a file

The pen writes the types, parameters and signatures of an emitted file as they are written by hand:
`TypeShape.text` and the functions after it say how. Each of them stays on its line, which `Inks`
states; only the lines of the parts matter for that.
-/

namespace NodeFamily.Layout

open Writing

/-- An act writes a text on a line, whatever is on the page. -/
def Inks (t : LineTable) (cs : List WaitingGroup) (line : Nat) (act : Writing Unit)
    (text : String) : Prop :=
  ∀ σ, Draws t cs act σ () (σ.put line (inkOf text))

/-- An act writes a text behind an item on a line, and gives a value. -/
def Adds {α : Type} (t : LineTable) (cs : List WaitingGroup) (line : Nat) (act : Writing α)
    (text : String) (v : α) : Prop :=
  ∀ (σ : Sheet) a, Draws t cs act (σ.put line a) v (σ.put line (a ++ inkOf text))

variable {t : LineTable} {cs : List WaitingGroup} {line pos d prec depth : Nat}

namespace Inks

variable {x y : Writing Unit} {a b s : String}

/-- What is written may be put in other words. -/
theorem of_eq (h : Inks t cs line x a) (heq : a = b) : Inks t cs line x b := heq ▸ h

/-- A text is written behind an item as it is elsewhere. -/
theorem adds (h : Inks t cs line x a) : Adds t cs line x a () := by
  intro σ b
  have h := h (σ.put line b)
  rwa [Sheet.put_put] at h

/-- One text after another is written. -/
theorem seq (hx : Inks t cs line x a) (hy : Adds t cs line y b ()) :
    Inks t cs line (x >>= fun _ => y) (a ++ b) := by
  intro σ
  rw [inkOf_append]
  exact (hx σ).seq (hy _ _)

/-- A text after two acts that belong together is written. -/
theorem pair {γ : Type} {z : Writing γ} (hzx : Inks t cs line (z >>= fun _ => x) a)
    (hy : Adds t cs line y b ()) : Inks t cs line (z >>= fun _ => x >>= fun _ => y) (a ++ b) := by
  intro σ
  rw [inkOf_append]
  exact (hzx σ).pair (hy _ _)

/-- A sign is written where it stands. -/
theorem sign (h : t.Has line s pos) (hquiet : QuietOn t cs line) (hs : Page.isLoose s = true) :
    Inks t cs line (signAt pos s) s :=
  fun _ => Draws.signAt h.isOn hquiet h.ne_empty h.unbroken (.inl hs)

/-- A name is written. -/
theorem name (prec depth : Nat) {n : Name} (hn : n.IsOn t line s) (hquiet : QuietOn t cs line) :
    Inks t cs line ((Pen.ofDepth (d + 1)).expr (.ofName n) prec depth) s := by
  intro σ
  obtain ⟨rfl, hn⟩ := hn
  exact Draws.wordAt hn hquiet

/-- A text is written after the page went to a position. -/
theorem goTo (hpos : t.IsOn line pos) (hx : Inks t cs line x s) :
    Inks t cs line (Writing.goTo pos >>= fun _ => x) s := by
  intro σ
  have h := (Draws.goTo hpos).seq (hx (σ.goTo line))
  rwa [Sheet.put_goTo] at h

end Inks

namespace Adds

variable {α β : Type} {x : Writing α} {y : Writing β} {u : α} {v : β} {a b : String}

/-- What is written may be put in other words. -/
theorem of_eq (h : Adds t cs line x a u) (heq : a = b) : Adds t cs line x b u := heq ▸ h

/-- Nothing is written to give a value. -/
theorem pure : Adds t cs line (Pure.pure u) "" u := by
  intro σ a
  have h : a ++ inkOf "" = a := List.append_nil a
  rw [h]
  exact .pure u

/-- One text after another is written, by an act that depends on what the first one gives. -/
theorem bind {f : α → Writing β} (hx : Adds t cs line x a u) (hf : Adds t cs line (f u) b v) :
    Adds t cs line (x >>= f) (a ++ b) v := by
  intro σ c
  rw [inkOf_append, ← List.append_assoc]
  exact (hx σ c).bind (hf σ _)

/-- One text after another is written. -/
theorem seq (hx : Adds t cs line x a u) (hy : Adds t cs line y b v) :
    Adds t cs line (x >>= fun _ => y) (a ++ b) v := bind hx hy

/-- A text is written after two acts that belong together. -/
theorem pair {γ : Type} {z : Writing γ} (hzx : Adds t cs line (z >>= fun _ => x) a u)
    (hy : Adds t cs line y b v) : Adds t cs line (z >>= fun _ => x >>= fun _ => y) (a ++ b) v := by
  intro σ c
  rw [inkOf_append, ← List.append_assoc]
  exact (hzx σ c).pair (hy σ _)

/-- A text is written after a look at the page. -/
theorem get {f : Page → Writing β}
    (h : ∀ p : Page, p.table = t → Adds t cs line (f p) b v) :
    Adds t cs line (MonadState.get >>= f) b v :=
  fun σ a => Draws.get fun p hp => h p hp.table σ a

/-- A text is written after a line was looked up. -/
theorem lineOf {f : Nat → Writing β} {line' : Nat} (hpos : t.line pos = line')
    (h : Adds t cs line (f line') b v) : Adds t cs line (Writing.lineOf pos >>= f) b v :=
  fun σ a => (Draws.lineOf hpos).bind (h σ a)

/-- What is written behind an item is written on a sheet right after one. -/
theorem stopped (h : Adds t cs line x a u) (indent outLine asked : Nat) (ink : List Ink) :
    Draws t cs x (.stopped indent ink line outLine asked) u
      (.stopped indent (ink ++ inkOf a) line outLine asked) := by
  have h := h (.stopped indent ink line outLine asked) []
  rwa [Sheet.stopped_put, Sheet.stopped_put, List.append_nil, List.nil_append] at h

/-- A text is written with a blank before it. -/
theorem blank {y : Writing Unit} (hy : Inks t cs line y b) :
    Adds t cs line (Writing.space .blank >>= fun _ => y) (" " ++ b) () := by
  intro σ a
  have h := Draws.blank.seq (hy ((σ.put line a).hold .blank))
  rw [Sheet.put_blank_put] at h
  rwa [inkOf_append]

end Adds

/-! ## Types -/

/-- The text of a type without a star. -/
def NamedType.text : NamedType → String
  | name n => n
  | member p n => p ++ "." ++ n
  | applied n arg => n ++ "[" ++ arg ++ "]"

/-- The text of a type. -/
def TypeShape.text (s : TypeShape) : String := (if s.starred then "*" else "") ++ s.base.text

/-- A type can be written while comments are left: the dot of a member, whose place is not known,
is in no such type. -/
def NamedType.Fits (cs : List WaitingGroup) : NamedType → Prop
  | member _ _ => cs = []
  | _ => True

/-- A member is written on one line. -/
theorem draws_member (σ : Sheet) (depth : Nat) (method : Bool) {n m : Name} {p q : String}
    (hn : n.IsOn t line p) (hm : m.IsOn t line q) (hquiet : QuietOn t [] line) :
    Draws t [] (Pen.member (Pen.ofDepth (d + 1)) (.ofName n) m depth method) σ false
      (σ.put line (inkOf (p ++ "." ++ q))) := by
  have hdot : Draws t [] (Writing.sign ".") (σ.put line (inkOf p)) ()
      (σ.put line (inkOf p ++ inkOf ".")) := by
    rw [← Sheet.put_put]
    exact Draws.sign (by decide) (by simp [Page.isBreak]) rfl
  have hword : Draws t [] (Writing.goTo m.pos >>= fun _ => Writing.word m.text)
      (σ.put line (inkOf p ++ inkOf ".")) () (σ.put line (inkOf (p ++ "." ++ q))) := by
    rw [inkOf_append, inkOf_append, ← Sheet.put_put σ line _ (inkOf q), ← hm.text]
    exact Draws.wordAt (hm.text ▸ hm.place) hquiet
  unfold Pen.member
  refine (Inks.name _ _ hn hquiet σ).seq (hdot.seq ((Draws.lineOf hm.place.start).bind
    (Draws.get fun r hr => ?_)))
  have hnone : (r.place.isValid && decide (r.place.line < line)) = false := by
    rw [hr.line]
    simp
  simp only [hnone, Bool.false_eq_true, if_false, Bool.false_and]
  exact hword.pair (.pure false)

/-- A type without a star is written. -/
theorem inks_base (prec depth : Nat) {b : NamedType} {x : Expr} (hb : b.Fits cs)
    (hx : b.IsTree t line x) (hquiet : QuietOn t cs line) :
    Inks t cs line ((Pen.ofDepth (d + 2)).expr x prec depth) b.text := by
  cases hx with
  | name hn => exact .name _ _ hn hquiet
  | member hn hm =>
    obtain rfl : cs = [] := hb
    exact .goTo hn.place.isOn fun σ => (draws_member σ _ _ hn hm hquiet).seq (.pure ())
  | applied hn hopening ha hclosing =>
    refine .goTo hn.place.isOn ?_
    have h := (Inks.name (d := d) highestPrecedence 1 hn hquiet).seq
      ((Inks.sign hopening hquiet rfl).seq ((Inks.name (d := d) 0 (depth + 1) ha
        hquiet).seq (Inks.sign hclosing hquiet rfl).adds).adds).adds
    exact h.of_eq (by simp [NamedType.text, String.append_assoc])

/-- A type is written. -/
theorem inks_type (depth : Nat) {s : TypeShape} {x : Expr} (hs : s.base.Fits cs)
    (hx : s.IsTree t line x) (hquiet : QuietOn t cs line) :
    Inks t cs line ((Pen.ofDepth (d + 3)).exprAt x depth) s.text := by
  cases hx with
  | plain hb =>
    exact (inks_base (d := d + 1) _ _ hs hb hquiet).of_eq (by simp [TypeShape.text])
  | star hpos hb =>
    have hstar : Inks t cs line (signAt _ "*") "*" := .sign hpos hquiet rfl
    exact (hstar.pair (inks_base (d := d) _ _ hs hb hquiet).adds).of_eq (by simp [TypeShape.text])

/-! ## Lists on one line -/

/-- An expression without a position before it is written as it stands alone. -/
theorem draws_exprs_single {pen : Pen} {x : Expr} {σ σ' : Sheet}
    (h : Draws t cs (pen.exprAt x depth) σ () σ') (flat : Bool) :
    Draws t cs (Pen.exprs pen 0 [x] depth false flat 0) σ () σ' := by
  have hitems : ∀ before, Draws t cs
      (Pen.items pen depth false true 0 { before, line := 0 } [x]) σ
      { before, line := t.line x.start } σ' := by
    intro before
    unfold Pen.items
    refine (Draws.lineOf rfl).bind ?_
    simp [Pen.sizeLimit]
    cases Pen.pairOf? x with
    | none => exact h.seq (.pure _)
    | some p => exact h.seq (.pure _)
  have hzero : t.place 0 = {} := rfl
  unfold Pen.exprs
  refine Draws.get fun p hp => ?_
  have hinvalid : Place.isValid {} = false := rfl
  simp only [hp.table, hzero, hinvalid, List.length_singleton, pure_bind, Bool.false_and,
    Bool.false_eq_true, if_false, gt_iff_lt, Nat.lt_irrefl, beq_self_eq_true]
  refine (hitems _).bind (Draws.get fun _ _ => ?_)
  cases flat with
  | false => exact .pure ()
  | true => exact .pure ()

/-- Texts from the one at `index` on, with a comma and a blank before each but the first. -/
def commas : (index : Nat) → List String → String
  | _, [] => ""
  | index, s :: rest => (if index = 0 then "" else ", ") ++ s ++ commas (index + 1) rest

/-- Texts with commas between them are joined by commas. -/
theorem commas_zero (ss : List String) : commas 0 ss = ", ".intercalate ss := by
  have hrest : ∀ ss index, 0 < index → ∀ s, s ++ commas index ss = ", ".intercalate (s :: ss) := by
    intro ss
    induction ss with
    | nil => simp [commas]
    | cons s' ss ih =>
      intro index hindex s
      rw [commas, if_neg (Nat.ne_of_gt hindex), String.intercalate_cons_cons,
        ← ih (index + 1) (Nat.succ_pos _) s']
      simp [String.append_assoc]
  cases ss with
  | nil => rfl
  | cons s ss =>
    rw [commas, if_pos rfl, ← hrest ss 1 Nat.one_pos s]
    simp

/-! ## Parameters -/

/-- The text of a name with its type. -/
def NamedField.text (p : NamedField) : String := p.1 ++ " " ++ p.2.text

/-- The text of parameters with commas between them. -/
def NamedField.listText (ps : List NamedField) : String :=
  ", ".intercalate (ps.map NamedField.text)

/-- A name by itself is written as a list of names. -/
theorem inks_names {n : Name} {s : String} (hn : n.IsOn t line s) (hquiet : QuietOn t cs line)
    (indented : Bool) : Inks t cs line (Pen.names (Pen.ofDepth (d + 1)) [n] indented) s :=
  fun σ => draws_exprs_single (Inks.name _ _ hn hquiet σ) _

/-- A sign is written at the place of what comes after it. -/
theorem Inks.signOn {s : String} (hpos : t.IsOn line pos) (hquiet : QuietOn t cs line)
    (hne : s ≠ "") (hunbroken : ∀ c ∈ s.toList, Page.isBreak c = false)
    (hs : Page.isLoose s = true) : Inks t cs line (signAt pos s) s :=
  fun _ => Draws.signAt hpos hquiet hne hunbroken (.inl hs)

/-- Parameters on one line are written. -/
theorem adds_paramsFrom {ps : List NamedField} {fs : List Field}
    (hfs : List.Forall₂ (NamedField.IsTree t line) ps fs) (hfits : ∀ p ∈ ps, p.2.base.Fits cs)
    (hquiet : QuietOn t cs line) (index : Nat) :
    Adds t cs line (Pen.paramsFrom (Pen.ofDepth (d + 3)) index line .indent fs)
      (commas index (ps.map NamedField.text)) (line, .indent) := by
  -- All parameters but the first one come after a comma and a blank.
  induction hfs generalizing index with
  | nil => exact .pure
  | @cons p f ps fs hf hfs ih =>
    rw [List.forall_mem_cons] at hfits
    obtain @⟨n, s, m, x, hn, hx⟩ := hf
    have hnames := inks_names (d := d + 2) hn hquiet true
    have hrest : Adds t cs line (space .blank >>= fun _ =>
        (Pen.ofDepth (d + 3)).plain x.ungrouped >>= fun _ =>
          Pen.paramsFrom (Pen.ofDepth (d + 3)) (index + 1) line .indent fs)
        (" " ++ s.text ++ commas (index + 1) (ps.map NamedField.text)) (line, .indent) := by
      rw [hx.ungrouped]
      exact (Adds.blank (inks_type _ hfits.1 hx hquiet)).pair (ih hfits.2 (index + 1))
    have hlast : t.line (Field.mk [m] x none false).stop = line := hx.liesOn.stop
    unfold Pen.paramsFrom
    refine .lineOf hn.place.start (.lineOf hlast ?_)
    by_cases hindex : index = 0
    · subst hindex
      have hitem := (hnames.adds.seq hrest).of_eq (b := commas 0 (((n, s) :: ps).map
        NamedField.text)) (by simp [commas, NamedField.text, String.append_assoc])
      simpa [Field.names, Field.type] using hitem
    · have hcomma : Adds t cs line (goTo m.pos >>= fun _ => sign ",") "," () :=
        (Inks.signOn hn.place.isOn hquiet (by decide) (by simp [Page.isBreak]) rfl).adds
      have htext : "," ++ (" " ++ n ++
          (" " ++ s.text ++ commas (index + 1) (ps.map NamedField.text))) =
            commas index (((n, s) :: ps).map NamedField.text) := by
        rw [List.map_cons, commas, if_neg hindex, show ", " = "," ++ " " from rfl]
        simp only [NamedField.text, String.append_assoc]
      have hitem := (hcomma.pair ((Adds.blank hnames).pair hrest)).of_eq htext
      simpa [Field.names, Field.type, hindex, Nat.pos_of_ne_zero hindex, Field.start] using hitem

/-- A name and a type without a star after it are not taken for one expression. -/
theorem TypeShape.IsTree.combines {s : TypeShape} {x : Expr} (hx : s.IsTree t line x)
    (hs : s.starred = false) : Pen.combines x = false := by
  cases hx with
  | plain hb => cases hb <;> rfl
  | star => exact absurd hs (by simp)

/-- Parameters in brackets on one line are written. -/
theorem inks_params (mode : Pen.ParamMode) {opens closes : String} {ps : List NamedField}
    {l : FieldList} (hl : NamedField.IsList t line opens closes ps l)
    (hfits : ∀ p ∈ ps, p.2.base.Fits cs) (hquiet : QuietOn t cs line)
    (hmode : (opens, closes) = if mode == .function then ("(", ")") else ("[", "]"))
    (hplain : mode = .typeTypes → ∀ p ∈ ps, p.2.starred = false) :
    Inks t cs line (Pen.params (Pen.ofDepth (d + 3)) l mode)
      (opens ++ (NamedField.listText ps ++ closes)) := by
  obtain @⟨opening, closing, fs, hopening, hfs, hclosing⟩ := hl
  have hloose : Page.isLoose opens = true ∧ Page.isLoose closes = true := by
    split at hmode
    · obtain ⟨rfl, rfl⟩ := Prod.mk.inj hmode
      exact ⟨rfl, rfl⟩
    · obtain ⟨rfl, rfl⟩ := Prod.mk.inj hmode
      exact ⟨rfl, rfl⟩
  unfold Pen.params
  rw [← hmode]
  dsimp only [FieldList.opening, FieldList.closing, FieldList.fields]
  refine (Inks.sign hopening hquiet hloose.1).seq ?_
  have hsign : Adds t cs line (signAt closing closes) closes () :=
    (Inks.sign hclosing hquiet hloose.2).adds
  cases hfs with
  | nil => exact hsign.of_eq (String.empty_append (s := closes)).symm
  | @cons p f ps fs hf hfs =>
    have hcombines : (mode == .typeTypes && (FieldList.mk opening (f :: fs) closing).count == 1 &&
        Pen.combines f.type) = false := by
      by_cases hmode : mode = .typeTypes
      · obtain @⟨n, s, m, x, hn, hx⟩ := hf
        have hstar : s.starred = false := hplain hmode _ List.mem_cons_self
        rw [Field.type, hx.combines hstar, Bool.and_false]
      · simp [hmode]
    have hparams := adds_paramsFrom (d := d) (.cons hf hfs) hfits hquiet 0
    rw [commas_zero] at hparams
    simp only [List.isEmpty_cons, Bool.not_false, if_true]
    refine .lineOf hopening.start (hparams.bind (.lineOf hclosing.start ?_))
    simpa [hcombines] using hsign

/-! ## Signatures -/

/-- The text of parameters and a result. -/
def signatureText (ps : List NamedField) (result : TypeShape) : String :=
  "(" ++ (NamedField.listText ps ++ ")") ++ (" " ++ result.text)

/-- The parameters and the result of a method are written. -/
theorem adds_signature (start : Nat) {ps : List NamedField} {result : TypeShape} {l rs : FieldList}
    (hl : NamedField.IsList t line "(" ")" ps l) (hrs : result.IsResult t line rs)
    (hps : ∀ p ∈ ps, p.2.base.Fits cs) (hresult : result.base.Fits cs)
    (hquiet : QuietOn t cs line) :
    Adds t cs line (Pen.signature (Pen.ofDepth (d + 3)) (Grammar.signatureOf start none l (some rs)))
      (signatureText ps result) () := by
  obtain @⟨x, hx⟩ := hrs
  have hparams := inks_params (d := d) .function hl hps hquiet rfl (by simp)
  unfold Grammar.signatureOf Pen.signature
  refine hparams.adds.seq ?_
  change Adds t cs line (space .blank >>= fun _ => (Pen.ofDepth (d + 3)).plain x.ungrouped) _ ()
  rw [hx.ungrouped]
  exact .blank (inks_type _ hresult hx hquiet)

/-- The text of a type parameter in brackets. -/
def typeParamText (r : String) : String := "[" ++ (r ++ " any" ++ "]")

/-- A type parameter in brackets is written. -/
theorem inks_typeParam (mode : Pen.ParamMode) {r : String} {l : FieldList}
    (hl : NamedField.IsList t line "[" "]" [typeParam r] l) (hquiet : QuietOn t cs line)
    (hmode : mode ≠ .function) :
    Inks t cs line (Pen.params (Pen.ofDepth (d + 3)) l mode) (typeParamText r) := by
  have hbrackets : ("[", "]") = if mode == .function then ("(", ")") else ("[", "]") := by
    rw [if_neg (by simpa using hmode)]
  refine (inks_params mode hl ?_ hquiet hbrackets ?_).of_eq ?_
  · simp [typeParam, NamedType.Fits]
  · simp [typeParam]
  · simp [typeParamText, typeParam, NamedField.listText, NamedField.text, TypeShape.text,
      NamedType.text, String.append_assoc]

/-- The type parameter, the parameters and the result of a function are written. -/
theorem adds_genericSignature (start : Nat) {r : String} {ps : List NamedField}
    {result : TypeShape} {g l rs : FieldList} (hg : NamedField.IsList t line "[" "]" [typeParam r] g)
    (hl : NamedField.IsList t line "(" ")" ps l) (hrs : result.IsResult t line rs)
    (hps : ∀ p ∈ ps, p.2.base.Fits cs) (hresult : result.base.Fits cs)
    (hquiet : QuietOn t cs line) :
    Adds t cs line
      (Pen.signature (Pen.ofDepth (d + 3)) (Grammar.signatureOf start (some g) l (some rs)))
      (typeParamText r ++ signatureText ps result) () := by
  change Adds t cs line (Pen.params (Pen.ofDepth (d + 3)) g .functionTypes >>= fun _ =>
    Pen.signature (Pen.ofDepth (d + 3)) (Grammar.signatureOf start none l (some rs))) _ ()
  exact (inks_typeParam _ hg hquiet (by simp)).adds.seq (adds_signature _ hl hrs hps hresult hquiet)

/-- The text of a method of an interface. -/
def MethodShape.text (m : MethodShape) : String := m.name ++ signatureText [m.param] m.result

/-- A method of an interface is written. -/
theorem inks_method {m : MethodShape} {f : Field} (hf : m.IsTree t line f)
    (hparam : m.param.2.base.Fits cs) (hresult : m.result.base.Fits cs)
    (hquiet : QuietOn t cs line) :
    Inks t cs line (Pen.element (Pen.ofDepth (d + 3)) f) m.text := by
  obtain ⟨hn, hps, hrs⟩ := hf
  exact (Inks.name _ _ hn hquiet).seq
    (adds_signature _ hps hrs (by simpa using hparam) hresult hquiet)

end NodeFamily.Layout
