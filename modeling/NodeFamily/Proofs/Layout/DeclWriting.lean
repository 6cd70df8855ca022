import NodeFamily.Proofs.Layout.ExprWriting

/-!
# Writing the declarations of a file

The pen writes a declaration of an emitted file line by line (`leads_decl`). What stands in
parentheses or braces is indented, one item on a line.
-/

namespace NodeFamily.Layout

open Writing

variable {t : LineTable} {cs : List WaitingGroup} {line d depth : Nat}

/-! ## Lines in braces -/

/-- The ink of lines that are indented, the first of which begins a section. -/
def rowsInk : List (List Ink) → List Ink
  | [] => []
  | row :: rows =>
    .char '\x0c' :: .char '\t' :: row ++ rows.flatMap fun row => .char '\n' :: .char '\t' :: row

/-- An act writes an item on its line. -/
def WritesOn (t : LineTable) (cs : List WaitingGroup) (line : Nat) (act : Writing Unit)
    (ink : List Ink) : Prop :=
  ∀ σ, Draws t cs act σ () (σ.put line ink)

/-- The line of an item that is asked for is the one on which it is written. -/
theorem draws_askingLine {act : Writing Unit} {row ink : List Ink} {σ : Sheet}
    {indent out asked : Nat} (h : WritesOn t cs line act row)
    (hσ : σ.put line row = .stopped indent ink line out asked) (hasked : σ.asked = asked) :
    Draws t cs (askingLine act) σ out (.stopped indent ink line out asked) := by
  have hasking := Draws.askingLine (h { σ with asks := true })
  rw [Sheet.put_asks, hσ, hasked] at hasking
  exact hasking

/-- Items on the lines after one are written. -/
theorem draws_onLines_some {α ι : Type} {start : α → Nat} {write : α → Writing Unit}
    {row : ι → List Ink} {xs : List ι} {as : List α} (ink : List Ink) (out asked : Nat)
    (h : List.Forall₂ (fun x a => t.line (start a) = x.2 ∧
      WritesOn t cs x.2 (write a) (row x.1)) (xs.zipIdx (line + 1)) as) :
    Draws t cs (Pen.onLines start write (some out) as) (.stopped 1 ink line out asked) ()
      (.stopped 1 (ink ++ (xs.map row).flatMap fun row => .char '\n' :: .char '\t' :: row)
        (line + xs.length) (out + xs.length) asked) := by
  -- Each item ends one line below the one before, so that all of them are in one section.
  induction xs generalizing as ink line out with
  | nil =>
    cases h
    rw [List.map_nil, List.flatMap_nil, List.append_nil]
    exact .pure ()
  | cons x xs ih =>
    rw [List.zipIdx_cons] at h
    obtain ⟨a, as, ⟨hstart, hwrite⟩, has, rfl⟩ := List.forall₂_cons_left_iff.1 h
    have hbreak : Draws t cs (breakTo (line + 1) 1 .none false) (.stopped 1 ink line out asked) 1
        ((Sheet.stopped 1 ink line out asked).hold .newline) :=
      Draws.breakTo_one rfl (Nat.le_refl 1) (by rfl)
    have hitem := draws_askingLine hwrite
      (Sheet.stopped_newline_put line (line + 1) (row x) 1 out asked ink) rfl
    have hrest := ih (ink ++ .char '\n' :: (Sheet.tabs 1 ++ row x)) (out + 1) has
    rw [List.append_assoc, List.cons_append, List.append_assoc, Nat.add_assoc, Nat.add_assoc,
      Nat.add_comm 1] at hrest
    unfold Pen.onLines
    refine (Draws.lineOf hstart).bind (Draws.get fun p hp => ?_)
    -- The item before took one line, so that no section starts.
    have hsame : decide (p.outLine > out) = false := by
      rw [hp.outLine]
      simp [Sheet.stopped]
    rw [hsame]
    exact hbreak.bind (hitem.bind hrest)

/-- Items on the lines after the one of an opening bracket are written. -/
theorem draws_onLines {α ι : Type} {start : α → Nat} {write : α → Writing Unit}
    {row : ι → List Ink} {xs : List ι} {as : List α} (ink : List Ink) (out asked : Nat)
    (h : List.Forall₂ (fun x a => t.line (start a) = x.2 ∧
      WritesOn t cs x.2 (write a) (row x.1)) (xs.zipIdx (line + 1)) as) (hxs : xs ≠ []) :
    Draws t cs (Pen.onLines start write none as)
      (((Sheet.stopped 0 ink line out asked).hold .indent).hold .newSection) ()
      (.stopped 1 (ink ++ rowsInk (xs.map row)) (line + xs.length) (out + xs.length) asked) := by
  obtain ⟨x, xs, rfl⟩ := List.exists_cons_of_ne_nil hxs
  rw [List.zipIdx_cons] at h
  obtain ⟨a, as, ⟨-, hwrite⟩, has, rfl⟩ := List.forall₂_cons_left_iff.1 h
  have hitem := draws_askingLine hwrite
    (Sheet.stopped_indent_newSection_put line (line + 1) (row x) 0 out asked ink) rfl
  have hrest := draws_onLines_some (ink ++ .char '\x0c' :: (Sheet.tabs 1 ++ row x)) (out + 1) asked
    has
  rw [List.append_assoc, List.cons_append, List.append_assoc, Nat.add_assoc, Nat.add_assoc,
    Nat.add_comm 1] at hrest
  unfold Pen.onLines
  exact hitem.bind hrest

/-! ## Structs and interfaces -/

/-- A field of a struct, in which a cell ends after the name unless the field is `alone`. -/
def fieldText (alone : Bool) (p : NamedField) : String :=
  p.1 ++ (if alone then " " else "\x0b") ++ p.2.text

/-- The lines in the braces of a type. -/
def TypeBody.rowTexts : TypeBody → List String
  | struct fields => fields.map (fieldText (fields.length == 1))
  | interface methods => methods.map MethodShape.text

/-- The ink of lines in braces, from the end of the first line on. -/
def bracedInk (rows : List String) : List Ink :=
  rowsInk (rows.map inkOf) ++ .char '\x0c' :: inkOf "\x7d"

/-- A field of a struct is written. -/
theorem writesOn_field {p : NamedField} {f : Field} (hf : NamedField.IsTree t line p f)
    (hfits : p.2.base.Fits cs) (hquiet : QuietOn t cs line) (alone : Bool) :
    WritesOn t cs line (Pen.fieldOnLine (Pen.ofDepth (d + 3)) (if alone then .blank else .cell) f)
      (inkOf (fieldText alone p)) := by
  obtain @⟨n, s, m, x, hn, hx⟩ := hf
  intro σ
  have hname := inks_names (d := d + 2) hn hquiet false σ
  have htype := inks_type (d := d) 1 hfits hx hquiet
  cases alone with
  | true =>
    have h := hname.seq (Draws.blank.seq (htype _))
    have htext : inkOf (fieldText true (n, s)) = inkOf n ++ .char ' ' :: inkOf s.text := by
      simp [fieldText, inkOf]
    rw [Sheet.put_blank_put, ← htext] at h
    exact h
  | false =>
    have h := hname.seq ((Draws.hold (s := .cell) (by rfl)).seq (htype _))
    have htext : inkOf (fieldText false (n, s)) = inkOf n ++ .char '\x0b' :: inkOf s.text := by
      simp [fieldText, inkOf]
    rw [Sheet.put_cell_put, ← htext] at h
    exact h

/-- How many octets something takes is found out without writing it. -/
theorem exists_draws_measured (t : LineTable) (cs : List WaitingGroup) (act : Writing Unit)
    (most indent : Nat) (σ : Sheet) :
    ∃ n, Draws t cs (measured act most indent) σ n σ := by
  let q : Page := { table := t, normalises := false, comments := [], indent }
  let text := trimInk (act.run q).2.finish.ink.reverse
  refine ⟨if octets text ≤ most && !text.any Page.isBreak then octets text else most + 1,
    Draws.get fun p hp => ?_⟩
  dsimp only
  rw [hp.table]
  exact .pure _

/-- Whether fields fit on one line is found out without writing them. -/
theorem exists_draws_fitsLine (t : LineTable) (cs : List WaitingGroup) (pen : Pen)
    (fs : List Field) (σ : Sheet) :
    ∃ b, Draws t cs (Pen.fitsLine pen fs) σ b σ := by
  unfold Pen.fitsLine
  split
  · next f =>
    split
    · exact ⟨false, .pure false⟩
    · obtain ⟨n, hn⟩ := exists_draws_measured t cs (pen.plain f.type) Pen.fieldLimit 0 σ
      exact ⟨_, hn.bind (.pure _)⟩
  · exact ⟨false, .pure false⟩

/-- An opening brace is written after a blank. -/
theorem draws_brace {opening : Nat} (ink : List Ink) (out asked : Nat)
    (hopening : t.Has line "\x7b" opening) (hquiet : QuietOn t cs line) :
    Draws t cs (signAt opening "\x7b") ((Sheet.stopped 0 ink line out asked).hold .blank) ()
      (.stopped 0 (ink ++ inkOf " \x7b") line out asked) := by
  have h := Draws.signAt (σ := (Sheet.stopped 0 ink line out asked).hold .blank) hopening.isOn
    hquiet hopening.ne_empty hopening.unbroken (.inl rfl)
  rwa [Sheet.stopped_blank_put] at h

/-- What stands in the braces of a type is written. -/
theorem draws_fields {ι : Type} {isStruct : Bool} {opening closing : Nat} (ink : List Ink)
    (out asked : Nat) {write : Field → Writing Unit} (row : ι → List Ink) {xs : List ι}
    {fs : List Field}
    (hwrite : (if isStruct then
      Pen.fieldOnLine (Pen.ofDepth (d + 3)) (if fs.length == 1 then .blank else .cell)
      else Pen.element (Pen.ofDepth (d + 3))) = write)
    (h : List.Forall₂ (fun x f => t.line f.start = x.2 ∧ WritesOn t cs x.2 (write f) (row x.1))
      (xs.zipIdx (line + 1)) fs)
    (hopening : t.Has line "\x7b" opening)
    (hclosing : t.Has (line + 1 + xs.length) "\x7d" closing)
    (hquiet : ∀ n ≤ line + 1 + xs.length, QuietOn t cs n) :
    Draws t cs (Pen.fields (Pen.ofDepth (d + 3)) (.mk opening fs closing) isStruct)
      (.stopped 0 ink line out asked) ()
      (.stopped 0 (ink ++ inkOf " \x7b" ++ (rowsInk (xs.map row) ++ .char '\x0c' :: inkOf "\x7d"))
        (line + 1 + xs.length) (out + 1 + xs.length) asked) := by
  subst hwrite
  obtain ⟨b, hfits⟩ := exists_draws_fitsLine t cs (Pen.ofDepth (d + 3)) fs
    (.stopped 0 ink line out asked)
  have hbrace := draws_brace ink out asked hopening (hquiet line (by omega))
  unfold Pen.fields
  refine Draws.get fun p hp => ?_
  have hcommented : p.hasCommentBefore (t.place closing) = false :=
    hp.toHolds.hasCommentBefore (hquiet _ (Nat.le_refl _) _ hclosing.isOn)
  have hlines : (t.line opening == t.line closing) = false := by
    rw [hopening.start, hclosing.start, beq_eq_false_iff_ne]
    omega
  dsimp only [FieldList.opening, FieldList.closing, FieldList.fields]
  simp only [hp.table, hcommented, hlines]
  -- Without fields the braces stand on two lines with nothing between them.
  cases xs with
  | nil =>
    cases h
    have hend := Draws.signAt (s := "\x7d")
      (σ := (((Sheet.stopped 0 (ink ++ inkOf " \x7b") line out asked).hold .indent).hold
        .unindent).hold .newSection) hclosing.isOn (hquiet _ (Nat.le_refl _)) hclosing.ne_empty
      hclosing.unbroken (.inl rfl)
    rw [Sheet.stopped_empty_put] at hend
    exact hfits.bind ((Draws.hold (by rfl)).seq (hbrace.seq ((Draws.hold (by rfl)).seq
      ((Draws.pure ()).seq ((Draws.hold (by rfl)).seq ((Draws.hold (by rfl)).seq hend))))))
  | cons x xs =>
    obtain ⟨f, fs, -, -, rfl⟩ := List.forall₂_cons_left_iff.1 (List.zipIdx_cons ▸ h)
    have hrows := draws_onLines (ink ++ inkOf " \x7b") out asked h (List.cons_ne_nil x xs)
    have hend := Draws.signAt (s := "\x7d")
      (σ := ((Sheet.stopped 1 (ink ++ inkOf " \x7b" ++ rowsInk ((x :: xs).map row))
        (line + (x :: xs).length) (out + (x :: xs).length) asked).hold .unindent).hold .newSection)
      hclosing.isOn (hquiet _ (Nat.le_refl _)) hclosing.ne_empty hclosing.unbroken (.inl rfl)
    rw [Sheet.stopped_unindent_newSection_put] at hend
    have hout : out + (x :: xs).length + 1 = out + 1 + (x :: xs).length := Nat.add_right_comm _ _ _
    rw [hout, List.append_assoc (ink ++ inkOf " \x7b")] at hend
    exact hfits.bind ((Draws.hold (by rfl)).seq (hbrace.seq ((Draws.hold (by rfl)).seq
      ((Draws.hold (by rfl)).seq (hrows.seq ((Draws.hold (by rfl)).seq
        ((Draws.hold (by rfl)).seq hend)))))))

/-- A struct or an interface can be written while comments are left. -/
def TypeBody.Fits (cs : List WaitingGroup) : TypeBody → Prop
  | struct fields => ∀ p ∈ fields, p.2.base.Fits cs
  | interface methods => ∀ m ∈ methods, m.param.2.base.Fits cs ∧ m.result.base.Fits cs

/-- What holds of the items of a list on their lines holds of each of them. -/
theorem forall₂_zipIdx {ι α : Type} {R S : ι × Nat → α → Prop} {xs : List ι} {as : List α} {n : Nat}
    (h : List.Forall₂ R (xs.zipIdx n) as)
    (himp : ∀ x ∈ xs, ∀ m < n + xs.length, ∀ a, R (x, m) a → S (x, m) a) :
    List.Forall₂ S (xs.zipIdx n) as := by
  induction xs generalizing as n with
  | nil =>
    cases h
    exact .nil
  | cons x xs ih =>
    rw [List.zipIdx_cons] at h ⊢
    obtain ⟨a, as, ha, has, rfl⟩ := List.forall₂_cons_left_iff.1 h
    refine .cons (himp x List.mem_cons_self n (by simp) a ha) (ih has fun y hy m hm => ?_)
    refine himp y (List.mem_cons_of_mem x hy) m ?_
    rw [List.length_cons]
    omega

/-- A struct or an interface is written. -/
theorem draws_body {body : TypeBody} {x : Expr} {σ : Sheet} (ink : List Ink) (out asked : Nat)
    (hx : body.IsTree t line x) (hfits : body.Fits cs)
    (hσ : ∀ a, σ.put line a = .stopped 0 (ink ++ a) line out asked)
    (hquiet : ∀ n ≤ line + 1 + body.rows.length, QuietOn t cs n) :
    Draws t cs ((Pen.ofDepth (d + 4)).plain x) σ ()
      (.stopped 0 (ink ++ inkOf (body.keyword ++ " \x7b") ++ bracedInk body.rowTexts)
        (line + 1 + body.rows.length) (out + 1 + body.rows.length) asked) := by
  have hkeyword : ∀ {start}, t.Has line body.keyword start → Draws t cs
      (goTo start >>= fun _ => sign body.keyword) σ ()
      (.stopped 0 (ink ++ inkOf body.keyword) line out asked) := by
    intro start hstart
    have hloose : Page.isLoose body.keyword = true := by
      have hall : ∀ s ∈ ["struct", "interface"], Page.isLoose s = true := by decide
      exact hall _ (by cases body <;> simp [TypeBody.keyword])
    have h := Draws.signAt (σ := σ) hstart.isOn (hquiet line (by omega)) hstart.ne_empty
      hstart.unbroken (.inl hloose)
    rwa [hσ] at h
  have htext : ∀ s, ink ++ inkOf s ++ inkOf " \x7b" = ink ++ inkOf (s ++ " \x7b") := by
    simp [List.append_assoc]
  cases hx with
  | @struct ps start opening closing fs hstart hopening hfs hclosing =>
    have hlength : fs.length = ps.length := by
      rw [← hfs.length_eq, List.length_zipIdx]
    simp only [TypeBody.rows, List.length_map] at hquiet ⊢
    have hrows := forall₂_zipIdx (S := fun x f => t.line f.start = x.2 ∧ WritesOn t cs x.2
        (Pen.fieldOnLine (Pen.ofDepth (d + 3)) (if fs.length == 1 then .blank else .cell) f)
        (inkOf (fieldText (ps.length == 1) x.1))) hfs fun p hp m hm f hf => by
      rw [hlength]
      refine ⟨?_, writesOn_field hf (hfits p hp) (hquiet m (by omega)) _⟩
      obtain ⟨hn, -⟩ := hf
      exact hn.place.start
    have h := draws_fields (ink ++ inkOf "struct") out asked
      (fun p => inkOf (fieldText (ps.length == 1) p)) (if_pos rfl) hrows hopening hclosing hquiet
    have hbody := (hkeyword hstart).pair h
    rw [htext] at hbody
    have hink : bracedInk (TypeBody.struct ps).rowTexts =
        rowsInk (ps.map fun p => inkOf (fieldText (ps.length == 1) p)) ++
          .char '\x0c' :: inkOf "\x7d" := by
      simp [bracedInk, TypeBody.rowTexts, Function.comp_def]
    rw [hink]
    exact hbody
  | @interface ms start opening closing fs hstart hopening hfs hclosing =>
    simp only [TypeBody.rows, List.length_map] at hquiet ⊢
    have hrows := forall₂_zipIdx (S := fun x f => t.line f.start = x.2 ∧ WritesOn t cs x.2
        (Pen.element (Pen.ofDepth (d + 3)) f) (inkOf x.1.text)) hfs fun m hm n hn f hf => by
      have hwrites := inks_method (d := d) hf (hfits m hm).1 (hfits m hm).2 (hquiet n (by omega))
      obtain ⟨hname, -, -⟩ := hf
      exact ⟨hname.place.start, hwrites⟩
    have h := draws_fields (ink ++ inkOf "interface") out asked
      (fun m => inkOf (MethodShape.text m)) (if_neg Bool.false_ne_true) hrows hopening hclosing
      hquiet
    have hbody := (hkeyword hstart).pair h
    rw [htext] at hbody
    have hink : bracedInk (TypeBody.interface ms).rowTexts =
        rowsInk (ms.map fun m => inkOf (MethodShape.text m)) ++
          .char '\x0c' :: inkOf "\x7d" := by
      simp [bracedInk, TypeBody.rowTexts, Function.comp_def]
    rw [hink]
    exact hbody

/-! ## Declarations -/

/-- The text between the keyword of a function and the brace of its body. -/
def FunctionHead.text (head : FunctionHead) (ps : List NamedField) (result : TypeShape) : String :=
  match head with
  | method receiver n => "(" ++ receiver.text ++ ") " ++ n ++ signatureText ps result
  | generic n r => n ++ typeParamText r ++ signatureText ps result

/-- The ink of a declaration. -/
def DeclShape.ink : DeclShape → List Ink
  | type n r body =>
    inkOf ("type " ++ n ++ typeParamText r ++ " " ++ body.keyword ++ " \x7b") ++
      bracedInk body.rowTexts
  | var n s value => inkOf ("var " ++ n ++ " " ++ s.text ++ " = " ++ value.text)
  | function head ps result value =>
    inkOf ("func " ++ head.text ps result ++ " \x7b") ++
      rowsInk [inkOf ("return " ++ value.text)] ++ .char '\n' :: inkOf "\x7d"

/-- The lines that a declaration takes after its first one. -/
def DeclShape.height (s : DeclShape) : Nat := s.lines.length - 1

/-- A declaration takes one line more than it is high. -/
theorem DeclShape.height_add_one (s : DeclShape) : s.height + 1 = s.lines.length := by
  obtain ⟨k, ls, lss, hlines, -⟩ := s.exists_lines_eq_cons
  rw [height, hlines, List.length_cons, Nat.add_sub_cancel]

/-- A declaration can be written while comments are left. -/
def DeclShape.Fits (cs : List WaitingGroup) : DeclShape → Prop
  | type _ _ body => body.Fits cs
  | _ => cs = []

/-- A generic type is written, once its keyword is. -/
theorem leads_type {n r : String} {body : TypeBody} {decl : Decl} {cs cs' : List WaitingGroup}
    {σ : Sheet} {ink : List Ink} {out asked : Nat}
    (hdecl : (DeclShape.type n r body).IsTree t line decl) (hfits : body.Fits cs')
    (hquiet : ∀ m ≤ line + (DeclShape.type n r body).height, QuietOn t cs' m)
    (hkeyword : Leads t cs cs' (signAt decl.span.start decl.keyword) σ ()
      (.stopped 0 (ink ++ inkOf decl.keyword) line out asked)) :
    Leads t cs cs' ((Pen.ofDepth (d + 5)).decl decl) σ ()
      (.stopped 0 (ink ++ (DeclShape.type n r body).ink)
        (line + (DeclShape.type n r body).height) (out + (DeclShape.type n r body).height)
        asked) := by
  have hheight : ∀ m, m + (DeclShape.type n r body).height = m + 1 + body.rows.length := by
    intro m
    simp [DeclShape.height, DeclShape.lines]
    omega
  simp only [hheight] at hquiet ⊢
  obtain @⟨_, _, _, documented, start, stop, m, l, x, hstart, hm, hl, hx⟩ := hdecl
  have hline := hquiet line (by omega)
  have hname := (Adds.blank (Inks.name (d := d + 3) 0 1 hm hline)).stopped
    0 out asked (ink ++ inkOf "type")
  have hparams := (inks_typeParam (d := d + 1) .typeTypes hl hline
    (by simp)).adds.stopped 0 out asked (ink ++ inkOf "type" ++ inkOf (" " ++ n))
  have hbody := draws_body (d := d)
    (ink ++ inkOf "type" ++ inkOf (" " ++ n) ++ inkOf (typeParamText r) ++ [.char ' ']) out asked
    (σ := (Sheet.stopped 0 (ink ++ inkOf "type" ++ inkOf (" " ++ n) ++ inkOf (typeParamText r))
      line out asked).hold .blank) hx hfits (by simp) hquiet
  have hink : ink ++ inkOf "type" ++ inkOf (" " ++ n) ++ inkOf (typeParamText r) ++ [.char ' '] ++
      inkOf (body.keyword ++ " \x7b") ++ bracedInk body.rowTexts =
        ink ++ (DeclShape.type n r body).ink := by
    simp [DeclShape.ink, inkOf]
  rw [hink] at hbody
  exact hkeyword.bind (hname.pair (hparams.seq ((Draws.hold (by rfl)).seq hbody)))

/-- A keyword at the start of a declaration is written. -/
theorem draws_keyword {s : String} {start : Nat} {σ : Sheet} {ink : List Ink} {out asked : Nat}
    (hstart : t.Has line s start) (hs : Page.isLoose s = true)
    (hσ : ∀ a, σ.put line a = .stopped 0 (ink ++ a) line out asked) (hquiet : QuietOn t cs line) :
    Draws t cs (signAt start s) σ () (.stopped 0 (ink ++ inkOf s) line out asked) := by
  have h := Draws.signAt (σ := σ) hstart.isOn hquiet hstart.ne_empty hstart.unbroken (.inl hs)
  rwa [hσ] at h

/-- No type is left out when no comment is left. -/
theorem NamedType.fits_nil (b : NamedType) : b.Fits [] := by
  cases b <;> simp [Fits]

/-- A variable is written. -/
theorem draws_var {n : String} {s : TypeShape} {value : ValueShape} {decl : Decl} {σ : Sheet}
    {ink : List Ink} {out asked : Nat} (hdecl : (DeclShape.var n s value).IsTree t line decl)
    (hσ : ∀ a, σ.put line a = .stopped 0 (ink ++ a) line out asked) (hquiet : QuietOn t [] line) :
    Draws t [] ((Pen.ofDepth (d + 6)).decl decl) σ ()
      (.stopped 0 (ink ++ (DeclShape.var n s value).ink) line out asked) := by
  obtain _ | ⟨hstart, hm, hx, hy⟩ := hdecl
  have hkeyword := draws_keyword hstart (by decide) hσ hquiet
  have hname := (Adds.blank (inks_names (d := d + 4) hm hquiet true)).stopped 0 out asked
    (ink ++ inkOf "var")
  have htype := (Adds.blank (inks_type (d := d + 2) 1 s.base.fits_nil hx
    hquiet)).stopped 0 out asked (ink ++ inkOf "var" ++ inkOf (" " ++ n))
  have hequals : Draws t [] (sign "=")
      ((Sheet.stopped 0 (ink ++ inkOf "var" ++ inkOf (" " ++ n) ++ inkOf (" " ++ s.text)) line out
        asked).hold .blank) () (.stopped 0 (ink ++ inkOf "var" ++ inkOf (" " ++ n) ++
          inkOf (" " ++ s.text) ++ inkOf " =") line out asked) := by
    have h := Draws.sign (t := t) (s := "=") (σ := (Sheet.stopped 0 (ink ++ inkOf "var" ++
      inkOf (" " ++ n) ++ inkOf (" " ++ s.text)) line out asked).hold .blank) (by decide)
      (by simp [Page.isBreak]) (by decide)
    rwa [Sheet.stopped_blank_put] at h
  have hvalue := draws_exprs_single (ValueShape.draws_value (d := d) 1 hy hquiet
    (σ := (Sheet.stopped 0 (ink ++ inkOf "var" ++ inkOf (" " ++ n) ++ inkOf (" " ++ s.text) ++
      inkOf " =") line out asked).hold .blank) (by simp [Sheet.hold])) false
  have hink : ink ++ inkOf "var" ++ inkOf (" " ++ n) ++ inkOf (" " ++ s.text) ++ inkOf " =" ++
      .char ' ' :: inkOf value.text = ink ++ (DeclShape.var n s value).ink := by
    simp [DeclShape.ink, inkOf]
  rw [Sheet.stopped_blank_put, hink] at hvalue
  exact hkeyword.seq (hname.pair (htype.pair ((Draws.hold (by rfl)).seq (hequals.seq
    ((Draws.hold (by rfl)).seq hvalue)))))

/-! ## Functions -/

/-- The return of a value is written. -/
theorem writesOn_return {value : ValueShape} {x : Expr} {begins : Nat} (ends : Nat) (closes : Bool)
    (hbegins : t.Has line "return" begins) (hx : value.IsTree t line x)
    (hquiet : QuietOn t [] line) :
    WritesOn t [] line ((Pen.ofDepth (d + 6)).stmt (.node ⟨begins, ends⟩ (.returns [x])) closes)
      (inkOf ("return " ++ value.text)) := by
  intro σ
  have hreturn : Draws t [] (goTo begins >>= fun _ => sign "return") σ ()
      (σ.put line (inkOf "return")) :=
    Draws.signAt hbegins.isOn hquiet hbegins.ne_empty hbegins.unbroken (.inl (by decide))
  have hvalue := draws_exprs_single (ValueShape.draws_value (d := d) 1 hx hquiet
    (σ := (σ.put line (inkOf "return")).hold .blank) (by simp [Sheet.hold])) false
  have hink : inkOf "return" ++ .char ' ' :: inkOf value.text =
      inkOf ("return " ++ value.text) := by
    simp [inkOf]
  rw [Sheet.put_blank_put, hink] at hvalue
  refine hreturn.pair ((Draws.hold (by rfl)).seq (Draws.get fun p hp => ?_))
  exact hvalue

/-- The one statement of a block, which returns a value, is written on a line of its own. -/
theorem draws_return {value : ValueShape} {x : Expr} {begins : Nat} (ends : Nat) {ink : List Ink}
    {out asked : Nat} (hbegins : t.Has (line + 1) "return" begins)
    (hx : value.IsTree t (line + 1) x) (hquiet : ∀ m, QuietOn t [] m) :
    Draws t [] (Pen.stmts (Pen.ofDepth (d + 6)) [.node ⟨begins, ends⟩ (.returns [x])] false true)
      (.stopped 0 (ink ++ inkOf " \x7b") line out asked) ()
      ((Sheet.stopped 1 (ink ++ inkOf " \x7b" ++ rowsInk [inkOf ("return " ++ value.text)])
        (line + 1) (out + 1) asked).hold .unindent) := by
  have hbreak : Draws t [] (breakTo (line + 1) 1 .none true)
      ((Sheet.stopped 0 (ink ++ inkOf " \x7b") line out asked).hold .indent) 2
      (((Sheet.stopped 0 (ink ++ inkOf " \x7b") line out asked).hold .indent).hold .newSection) :=
    Draws.breakTo_one rfl (Nat.le_refl 1) (by rfl)
  have hreturn := draws_askingLine
    (writesOn_return (d := d) ends true hbegins hx (hquiet _))
    (Sheet.stopped_indent_newSection_put line (line + 1) (inkOf ("return " ++ value.text)) 0 out
      asked (ink ++ inkOf " \x7b")) rfl
  have hfrom : Draws t [] (Pen.stmtsFrom (Pen.ofDepth (d + 6)) false true 1 0 0
      [.node ⟨begins, ends⟩ (.returns [x])])
      ((Sheet.stopped 0 (ink ++ inkOf " \x7b") line out asked).hold .indent) ()
      (Sheet.stopped 1 (ink ++ inkOf " \x7b" ++ rowsInk [inkOf ("return " ++ value.text)])
        (line + 1) (out + 1) asked) := by
    unfold Pen.stmtsFrom
    refine Draws.get (b := ()) fun p hp => ?_
    have hsize : p.size > 0 := by
      rw [hp.size]
      simp [Sheet.stopped, Sheet.hold, inkOf]
    have hstart : p.table.line (Stmt.node ⟨begins, ends⟩ (.returns [x])).start = line + 1 := by
      rw [hp.table]
      exact hbegins.start
    dsimp only
    rw [if_pos hsize, hstart]
    refine hbreak.bind (hreturn.bind ?_)
    have hink : rowsInk [inkOf ("return " ++ value.text)] =
        .char '\x0c' :: (Sheet.tabs (0 + 1) ++ inkOf ("return " ++ value.text)) :=
      List.append_nil _
    rw [hink]
    exact .pure ()
  exact (Draws.hold (by rfl)).seq (hfrom.seq (Draws.hold (by rfl)))

/-- A block that returns a value is written after a blank. -/
theorem draws_block {value : ValueShape} {x : Expr} {opening begins ends closing : Nat}
    {ink : List Ink} {out asked : Nat} (hopening : t.Has line "\x7b" opening)
    (hbegins : t.Has (line + 1) "return" begins) (hx : value.IsTree t (line + 1) x)
    (hclosing : t.Has (line + 2) "\x7d" closing) (hquiet : ∀ m, QuietOn t [] m) :
    Draws t [] (Pen.block (Pen.ofDepth (d + 6))
        (.mk opening [.node ⟨begins, ends⟩ (.returns [x])] closing) false)
      ((Sheet.stopped 0 ink line out asked).hold .blank) ()
      (.stopped 0 (ink ++ inkOf " \x7b" ++ rowsInk [inkOf ("return " ++ value.text)] ++
        .char '\n' :: inkOf "\x7d") (line + 2) (out + 2) asked) := by
  have hend : Draws t [] (breakTo (line + 2) 1 .none false)
      ((Sheet.stopped 1 (ink ++ inkOf " \x7b" ++ rowsInk [inkOf ("return " ++ value.text)])
        (line + 1) (out + 1) asked).hold .unindent) 1
      (((Sheet.stopped 1 (ink ++ inkOf " \x7b" ++ rowsInk [inkOf ("return " ++ value.text)])
        (line + 1) (out + 1) asked).hold .unindent).hold .newline) :=
    Draws.breakTo_one rfl (Nat.le_refl 1) (by rfl)
  have hcloses : Draws t [] (signAt closing "\x7d")
      (((Sheet.stopped 1 (ink ++ inkOf " \x7b" ++ rowsInk [inkOf ("return " ++ value.text)])
        (line + 1) (out + 1) asked).hold .unindent).hold .newline) ()
      (.stopped 0 (ink ++ inkOf " \x7b" ++ rowsInk [inkOf ("return " ++ value.text)] ++
        .char '\n' :: inkOf "\x7d") (line + 2) (out + 2) asked) := by
    have h := Draws.signAt (σ := ((Sheet.stopped 1 (ink ++ inkOf " \x7b" ++
      rowsInk [inkOf ("return " ++ value.text)]) (line + 1) (out + 1) asked).hold .unindent).hold
        .newline) hclosing.isOn (hquiet _) hclosing.ne_empty hclosing.unbroken (.inl (by decide))
    rwa [Sheet.stopped_unindent_newline_put] at h
  exact (draws_brace ink out asked hopening (hquiet line)).seq
    ((draws_return ends hbegins hx hquiet).seq
      ((Draws.lineOf hclosing.start).bind (hend.bind hcloses)))

/-- A body that returns a value is written. -/
theorem draws_functionBody {value : ValueShape} {x : Expr} {opening begins ends closing : Nat}
    {ink : List Ink} {out asked headSize : Nat} (hopening : t.Has line "\x7b" opening)
    (hbegins : t.Has (line + 1) "return" begins) (hx : value.IsTree t (line + 1) x)
    (hclosing : t.Has (line + 2) "\x7d" closing) (hquiet : ∀ m, QuietOn t [] m) :
    Draws t [] (Pen.body (Pen.ofDepth (d + 6)) headSize .cell
        (.mk opening [.node ⟨begins, ends⟩ (.returns [x])] closing))
      (.stopped 0 ink line out asked) ()
      (.stopped 0 (ink ++ inkOf " \x7b" ++ rowsInk [inkOf ("return " ++ value.text)] ++
        .char '\n' :: inkOf "\x7d") (line + 2) (out + 2) asked) := by
  have hlines : (t.line opening != t.line closing) = true := by
    rw [hopening.start, hclosing.start, bne_iff_ne]
    omega
  have hsize : Draws t [] (Pen.blockSize (Pen.ofDepth (d + 6))
      (.mk opening [.node ⟨begins, ends⟩ (.returns [x])] closing)) (.stopped 0 ink line out asked)
      (Pen.bodyLimit + 1) (.stopped 0 ink line out asked) := by
    refine Draws.get fun p hp => ?_
    rw [hp.table, Block.opening, Block.closing, hlines]
    exact .pure _
  have hlevel : ∀ level σ, Draws t [] (modify fun p => { p with level }) σ () σ :=
    fun level σ => Draws.alter fun _ hp => { hp with }
  unfold Pen.body
  refine Draws.get fun p hp => (hlevel 0 _).seq (hsize.bind ?_)
  dsimp only
  rw [if_neg (by omega)]
  exact (Draws.hold (by rfl)).seq
    ((draws_block hopening hbegins hx hclosing hquiet).seq (hlevel p.level _))

/-- What is written after a look at a distance does not depend on it. -/
theorem draws_distance {α : Type} {f : Nat → Writing α} {σ σ' : Sheet} {a : α} {start column : Nat}
    (h : ∀ n, Draws t cs (f n) σ a σ') :
    Draws t cs (Pen.distance start column >>= f) σ a σ' := by
  unfold Pen.distance
  rw [bind_assoc]
  exact Draws.get fun p hp => (Draws.pure _).bind (h _)

/-- A function is written. -/
theorem draws_function {head : FunctionHead} {ps : List NamedField} {result : TypeShape}
    {value : ValueShape} {decl : Decl} {σ : Sheet} {ink : List Ink} {out asked : Nat}
    (hdecl : (DeclShape.function head ps result value).IsTree t line decl)
    (hσ : ∀ a, σ.put line a = .stopped 0 (ink ++ a) line out asked) (hquiet : ∀ m, QuietOn t [] m) :
    Draws t [] ((Pen.ofDepth (d + 7)).decl decl) σ ()
      (.stopped 0 (ink ++ (DeclShape.function head ps result value).ink) (line + 2) (out + 2)
        asked) := by
  cases hdecl with
  | @function _ _ _ _ documented start opening begins ends closing receiver? generic? m l rs x
      hstart hhead hps hrs hopening hbegins hx hclosing =>
    have hkeyword := draws_keyword hstart (by decide) hσ (hquiet line)
    have hfits : ∀ p ∈ ps, p.2.base.Fits [] := fun p _ => p.2.base.fits_nil
    -- The body comes after the head and the parameters.
    have hbody : ∀ headSize, Draws t [] (Pen.body (Pen.ofDepth (d + 6)) headSize .cell
        (.mk opening [.node ⟨begins, ends⟩ (.returns [x])] closing))
        (.stopped 0 (ink ++ inkOf ("func " ++ head.text ps result)) line out asked) ()
        (.stopped 0 (ink ++ (DeclShape.function head ps result value).ink) (line + 2) (out + 2)
          asked) := by
      intro headSize
      have hink : ink ++ (DeclShape.function head ps result value).ink =
          ink ++ inkOf ("func " ++ head.text ps result) ++ inkOf " \x7b" ++
            rowsInk [inkOf ("return " ++ value.text)] ++ .char '\n' :: inkOf "\x7d" := by
        simp [DeclShape.ink, inkOf]
      rw [hink]
      exact draws_functionBody hopening hbegins hx hclosing hquiet
    cases hhead with
    | @method receiver n r m hr hm =>
      have hreceiver := inks_params (d := d + 3) .function hr
        (fun p _ => p.2.base.fits_nil) (hquiet line) rfl (by simp)
        ((Sheet.stopped 0 (ink ++ inkOf "func") line out asked).hold .blank)
      rw [Sheet.stopped_blank_put] at hreceiver
      have hname := (Adds.blank (Inks.name (d := d + 5) 0 1 hm
        (hquiet line))).stopped 0 out asked (ink ++ inkOf "func" ++
          .char ' ' :: inkOf ("(" ++ (NamedField.listText [receiver] ++ ")")))
      have hsignature := (adds_signature (d := d + 3) start hps hrs hfits
        result.base.fits_nil (hquiet line)).stopped 0 out asked (ink ++ inkOf "func" ++
          .char ' ' :: inkOf ("(" ++ (NamedField.listText [receiver] ++ ")")) ++ inkOf (" " ++ n))
      have hink : ink ++ inkOf "func" ++
          .char ' ' :: inkOf ("(" ++ (NamedField.listText [receiver] ++ ")")) ++ inkOf (" " ++ n) ++
            inkOf (signatureText ps result) =
          ink ++ inkOf ("func " ++ (FunctionHead.method receiver n).text ps result) := by
        simp [FunctionHead.text, NamedField.listText, inkOf]
      rw [hink] at hsignature
      exact hkeyword.seq ((Draws.hold (by rfl)).seq (Draws.get fun p hp => hreceiver.seq
        (hname.pair (hsignature.seq (draws_distance fun k => hbody k)))))
    | @generic n r g m hm hg =>
      have hname := Inks.name (d := d + 5) 0 1 hm (hquiet line)
        ((Sheet.stopped 0 (ink ++ inkOf "func") line out asked).hold .blank)
      rw [Sheet.stopped_blank_put] at hname
      have hsignature := (adds_genericSignature (d := d + 3) start hg hps hrs hfits
        result.base.fits_nil (hquiet line)).stopped 0 out asked (ink ++ inkOf "func" ++
          .char ' ' :: inkOf n)
      have hink : ink ++ inkOf "func" ++ .char ' ' :: inkOf n ++
            inkOf (typeParamText r ++ signatureText ps result) =
          ink ++ inkOf ("func " ++ (FunctionHead.generic n r).text ps result) := by
        simp [FunctionHead.text, inkOf]
      rw [hink] at hsignature
      exact hkeyword.seq ((Draws.hold (by rfl)).seq (Draws.get fun p hp => hname.seq
        (hsignature.seq (draws_distance fun k => hbody k))))

end NodeFamily.Layout
