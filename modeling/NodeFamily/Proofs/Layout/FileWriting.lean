import NodeFamily.Proofs.Layout.CommentWriting
import NodeFamily.Proofs.Layout.DeclWriting
import NodeFamily.Proofs.Layout.Unquoting

/-!
# Writing a file

The pen writes the imports of a file, and then its declarations with an empty line between each two
(`leads_decls`).
-/

namespace NodeFamily.Layout

open Writing

variable {t : LineTable} {cs : List WaitingGroup} {line d : Nat}

/-! ## Imports -/

/-- The trees of an import that may have been moved to another line. -/
inductive IsMovedImport (t : LineTable) (line : Nat) (p : String) : Spec → Prop
  | mk {pos stop : Nat} : (∀ c ∈ (Text.quote p).toList, Page.isBreak c = false) → t.IsOn line pos →
      stop = 0 ∨ t.IsOn line stop →
      IsMovedImport t line p (.path none ⟨pos, .text, Text.quote p⟩ "" stop)

/-- The trees of imports that may have changed places. -/
inductive AreSortedImports (t : LineTable) (line : Nat) (paths : List String) : Decl → Prop
  | mk {documented : Bool} {start stop opening closing : Nat} {specs : List Spec} :
      t.Has line "import" start → t.Has line "(" opening →
      List.Forall₂ (fun p s => IsMovedImport t p.2 p.1 s) (paths.zipIdx (line + 1)) specs →
      t.Has (line + 1 + paths.length) ")" closing →
      AreSortedImports t line paths
        (.general documented ⟨start, stop⟩ "import" opening specs closing)

/-- The ink of imports. -/
def importsInk (paths : List String) : List Ink :=
  inkOf "import (" ++ rowsInk (paths.map fun p => fencedInk (Text.quote p)) ++
    .char '\x0c' :: inkOf ")"

/-- The path of an import is written in quotes. -/
theorem pathText_quote (p : String) : Pen.pathText (Text.quote p) = Text.quote p := by
  unfold Pen.pathText
  rw [unquote?_quote]
  simp

/-- An import is written. -/
theorem writesOn_import {p : String} {s : Spec} (hs : IsMovedImport t line p s)
    (hquiet : QuietOn t cs line) (count : Nat) (indented : Bool) :
    t.line s.start = line ∧
      WritesOn t cs line (Pen.spec (Pen.ofDepth (d + 1)) count indented s)
        (fencedInk (Text.quote p)) := by
  obtain @⟨pos, stop, hunbroken, hpos, hstop⟩ := hs
  refine ⟨hpos.line_eq, fun σ => ?_⟩
  have hne : Text.quote p ≠ "" := by simp [Text.quote, ← String.toList_inj]
  have htext : Draws t cs ((Pen.ofDepth (d + 1)).plain
      (.ofLiteral ⟨pos, .text, Pen.pathText (Text.quote p)⟩)) σ ()
      (σ.put line (fencedInk (Text.quote p))) := by
    -- The text is no number, so that it is written as it stands.
    have hliteral : Pen.literalText .text (Text.quote p) = literal .text (Text.quote p) := by
      unfold Pen.literalText
      simp only [LiteralKind.isNumber, Bool.and_false, Bool.false_eq_true, if_false]
      rfl
    rw [pathText_quote]
    change Draws t cs (goTo pos >>= fun _ => Pen.literalText .text (Text.quote p)) _ _ _
    rw [hliteral]
    exact Draws.textAt hpos hquiet hne hunbroken
  have hend : Draws t cs (goTo stop) (σ.put line (fencedInk (Text.quote p))) ()
      (σ.put line (fencedInk (Text.quote p))) := by
    rcases hstop with rfl | hstop
    · exact .alter fun _ hp => hp
    · exact Draws.goTo hstop
  exact (Draws.pure ()).seq (htext.seq hend)

/-- Imports are written. -/
theorem draws_imports {paths : List String} {decl : Decl} {σ : Sheet} (ink : List Ink)
    (out asked : Nat) (hdecl : AreSortedImports t line paths decl) (hpaths : paths ≠ [])
    (hσ : ∀ a, σ.put line a = .stopped 0 (ink ++ a) line out asked)
    (hquiet : ∀ m ≤ line + 1 + paths.length, QuietOn t cs m) :
    Draws t cs ((Pen.ofDepth (d + 2)).decl decl) σ ()
      (.stopped 0 (ink ++ importsInk paths) (line + 1 + paths.length) (out + 1 + paths.length)
        asked) := by
  obtain @⟨documented, start, stop, opening, closing, specs, hstart, hopening, hspecs, hclosing⟩ :=
    hdecl
  have hlength : specs.length = paths.length := by
    rw [← hspecs.length_eq, List.length_zipIdx]
  have hkeyword := draws_keyword hstart (by decide) hσ (hquiet line (by omega))
  have hopens : Draws t cs (signAt opening "(")
      ((Sheet.stopped 0 (ink ++ inkOf "import") line out asked).hold .blank) ()
      (.stopped 0 (ink ++ inkOf "import" ++ [.char ' '] ++ inkOf "(") line out asked) :=
    draws_keyword hopening (by decide) (by simp) (hquiet line (by omega))
  have hwrites := forall₂_zipIdx (S := fun x s => t.line s.start = x.2 ∧ WritesOn t cs x.2
      (Pen.spec (Pen.ofDepth (d + 1)) specs.length false s) (fencedInk (Text.quote x.1))) hspecs
    fun p hp m hm s hs => writesOn_import hs (hquiet m (by omega)) specs.length false
  have hrows := @draws_onLines t cs line _ _ Spec.start _ (fun p => fencedInk (Text.quote p)) _ _
    (ink ++ inkOf "import" ++ [.char ' '] ++ inkOf "(") out asked hwrites hpaths
  have hcloses : Draws t cs (signAt closing ")")
      (((Sheet.stopped 1 (ink ++ inkOf "import" ++ [.char ' '] ++ inkOf "(" ++
        rowsInk (paths.map fun p => fencedInk (Text.quote p))) (line + paths.length)
          (out + paths.length) asked).hold .unindent).hold .newSection) ()
      (.stopped 0 (ink ++ inkOf "import" ++ [.char ' '] ++ inkOf "(" ++
        rowsInk (paths.map fun p => fencedInk (Text.quote p)) ++ [.char '\x0c'] ++ inkOf ")")
          (line + 1 + paths.length) (out + paths.length + 1) asked) :=
    draws_keyword hclosing (by decide) (by simp [Sheet.tabs]) (hquiet _ (Nat.le_refl _))
  have hink : ink ++ inkOf "import" ++ [.char ' '] ++ inkOf "(" ++
      rowsInk (paths.map fun p => fencedInk (Text.quote p)) ++ [.char '\x0c'] ++ inkOf ")" =
        ink ++ importsInk paths := by
    simp [importsInk, inkOf]
  rw [hink, Nat.add_right_comm out] at hcloses
  have hcount : specs.length > 0 := hlength ▸ List.length_pos_of_ne_nil hpaths
  obtain ⟨k, rfl⟩ := Nat.exists_eq_add_one_of_ne_zero (Nat.ne_of_gt hopening.isPosition)
  refine hkeyword.seq ((Draws.hold (by rfl)).seq (hopens.seq ?_))
  dsimp only
  rw [if_pos hcount, if_neg (by simp)]
  exact (Draws.hold (by rfl)).seq ((Draws.hold (by rfl)).seq (hrows.seq
    ((Draws.hold (by rfl)).seq ((Draws.hold (by rfl)).seq hcloses))))

/-! ## Declarations -/

/-- Whether a declaration is a function. -/
def DeclShape.isFunction : DeclShape → Bool
  | function .. => true
  | _ => false

/-- The ink between the item before a declaration and its keyword: the end of the line and an empty
line. -/
def DeclShape.breakInk (s : DeclShape) : List Ink :=
  [.char (if s.isFunction then '\x0c' else '\n'), .char '\n']

/-- A declaration starts on its line, and only a function is a function of several lines. -/
theorem DeclShape.IsTree.starts {s : DeclShape} {decl : Decl} (h : s.IsTree t line decl) :
    t.line decl.span.start = line ∧
      (decl.keyword == "func" && decide (t.line decl.span.stop > line)) = s.isFunction := by
  cases h with
  | type hstart => exact ⟨hstart.start, rfl⟩
  | var hstart => exact ⟨hstart.start, rfl⟩
  | function hstart _ _ _ _ _ _ hclosing =>
    refine ⟨hstart.start, ?_⟩
    simp [Decl.keyword, Decl.span, hclosing.succ (by decide), isFunction]

/-- A declaration is written when no comment is left. -/
theorem draws_decl {s : DeclShape} {decl : Decl} {σ : Sheet} (ink : List Ink) (out asked : Nat)
    (hdecl : s.IsTree t line decl) (hσ : ∀ a, σ.put line a = .stopped 0 (ink ++ a) line out asked)
    (hquiet : ∀ m, QuietOn t [] m) :
    Draws t [] ((Pen.ofDepth (d + 7)).decl decl) σ ()
      (.stopped 0 (ink ++ s.ink) (line + s.height) (out + s.height) asked) := by
  cases s with
  | type n r body =>
    have hfits : body.Fits [] := by
      cases body with
      | struct fields => exact fun p _ => p.2.base.fits_nil
      | interface methods => exact fun m _ => ⟨m.param.2.base.fits_nil, m.result.base.fits_nil⟩
    have hkeyword : decl.keyword = "type" ∧ t.Has line "type" decl.span.start := by
      cases hdecl with
      | type hstart => exact ⟨rfl, hstart⟩
    refine leads_type (d := d + 2) hdecl hfits (fun m _ => hquiet m) ?_
    rw [hkeyword.1]
    exact draws_keyword hkeyword.2 (by decide) hσ (hquiet line)
  | var n s value => exact draws_var (d := d + 1) hdecl hσ (hquiet line)
  | function head ps result value => exact draws_function hdecl hσ hquiet

/-- A declaration and those after it are written after an empty line. -/
theorem leads_declsFrom_cons {cs' cs'' : List WaitingGroup} {decl : Decl} {decls : List Decl}
    {ink : List Ink} {before out asked : Nat} {σ σ' : Sheet} {pen : Pen} {newSection : Bool}
    (hstart : t.line decl.span.start = line ∧
      (decl.keyword == "func" && decide (t.line decl.span.stop > line)) = newSection)
    (hink : ink ≠ []) (hline : before + 2 ≤ line)
    (hwrite : Leads t cs cs' (pen.decl decl)
      (((Sheet.stopped 0 ink before out asked).hold
        (if newSection then .newSection else .newline)).hold .newline) () σ)
    (hrest : Leads t cs' cs'' (Pen.declsFrom pen decl.keyword decls) σ () σ') (keyword : String) :
    Leads t cs cs'' (Pen.declsFrom pen keyword (decl :: decls)) (.stopped 0 ink before out asked) ()
      σ' := by
  have hbreak : ∀ least ≤ 2, Draws t cs (breakTo line least .none newSection)
      (.stopped 0 ink before out asked) (if newSection then 3 else 2)
      (((Sheet.stopped 0 ink before out asked).hold
        (if newSection then .newSection else .newline)).hold .newline) :=
    fun least hleast => Draws.breakTo_two hline hleast (by rfl)
  have hleast : (if (decl.keyword != keyword || decl.documented) = true then 2 else 1) ≤ 2 := by
    split <;> omega
  unfold Pen.declsFrom
  refine Leads.get fun p hp => ?_
  have hsize : p.size > 0 := by
    rw [hp.size]
    exact List.length_pos_of_ne_nil hink
  dsimp only
  rw [if_pos hsize, hp.table, hstart.1, hstart.2]
  exact Leads.bind (hbreak _ hleast) (hwrite.bind hrest)

/-- Trees of declarations from a line on, each with the documentation above it, whose comments are
the ones that wait. Only types are documented, and those before the others. -/
inductive AreDocumented (t : LineTable) : (line : Nat) → List (List String × DeclShape) →
    List Decl → List WaitingGroup → Prop
  | nil {line : Nat} : AreDocumented t line [] [] []
  | bare {line : Nat} {s : DeclShape} {ss : List (List String × DeclShape)} {decl : Decl}
      {decls : List Decl} : s.IsTree t line decl →
      AreDocumented t (line + s.height + 2) ss decls [] →
      AreDocumented t line (([], s) :: ss) (decl :: decls) []
  | documented {line : Nat} {texts : List String} {n r : String} {body : TypeBody}
      {ss : List (List String × DeclShape)} {decl : Decl} {decls : List Decl} {g : WaitingGroup}
      {gs : List WaitingGroup} :
      (DeclShape.type n r body).IsTree t (line + texts.length) decl → IsDocumentation texts →
      g.IsAbove t line decl.span.start texts → body.Fits gs →
      (∀ m ≤ line + texts.length + (DeclShape.type n r body).height, QuietOn t gs m) →
      AreDocumented t (line + texts.length + (DeclShape.type n r body).height + 2) ss decls gs →
      AreDocumented t line ((texts, .type n r body) :: ss) (decl :: decls) (g :: gs)

/-- The ink of a declaration after another one. -/
def documentedInk (s : List String × DeclShape) : List Ink :=
  (if s.1.isEmpty then s.2.breakInk else docInk s.1) ++ s.2.ink

/-- Declarations are written with an empty line between each two. -/
theorem leads_decls {ss : List (List String × DeclShape)} {decls : List Decl}
    {gs : List WaitingGroup} (h : AreDocumented t line ss decls gs)
    {ink : List Ink} (hink : ink ≠ []) {before : Nat} (hbefore : 0 < before)
    (hline : before + 2 = line) (out asked : Nat) (keyword : String) :
    ∃ last out', Leads t gs [] (Pen.declsFrom (Pen.ofDepth (d + 7)) keyword decls)
      (.stopped 0 ink before out asked) () (.stopped 0 (ink ++ ss.flatMap documentedInk) last out'
        asked) := by
  -- The induction is on the declarations; there is always ink before the next one, so that it comes
  -- after an empty line.
  induction h generalizing ink before out keyword with
  | nil =>
    refine ⟨before, out, ?_⟩
    rw [List.flatMap_nil, List.append_nil]
    exact Draws.pure ()
  | @bare line s ss decl decls hdecl hrest ih =>
    have hwrite := draws_decl (d := d) (ink ++ s.breakInk) (out + 2) asked
      (σ := ((Sheet.stopped 0 ink before out asked).hold
        (if s.isFunction then .newSection else .newline)).hold .newline)
      hdecl (by
        intro a
        unfold DeclShape.breakInk
        cases s.isFunction <;> simp [Sheet.tabs]) (by simp [QuietOn, Quiet])
    obtain ⟨last, out', hrest⟩ := @ih (ink ++ s.breakInk ++ s.ink) (by simp [DeclShape.breakInk])
      (line + s.height) (by omega) rfl (out + 2 + s.height) decl.keyword
    refine ⟨last, out',
      leads_declsFrom_cons hdecl.starts hink (Nat.le_of_eq hline) hwrite ?_ keyword⟩
    simpa [documentedInk] using hrest
  | @documented line texts n r body ss decl decls g gs hdecl hdoc habove hfits hquiet hrest ih =>
    have hkeyword : decl.keyword = "type" ∧ t.Has (line + texts.length) "type" decl.span.start := by
      cases hdecl with
      | type hstart => exact ⟨rfl, hstart⟩
    have hsign := leads_documented out asked hdoc habove hkeyword.2
      (hquiet _ (by omega)) (by decide) hink hbefore (by omega)
    have hwrite := leads_type (d := d + 2) hdecl hfits hquiet (by
      rw [hkeyword.1]
      exact hsign)
    obtain ⟨last, out', hrest⟩ := @ih (ink ++ docInk texts ++ (DeclShape.type n r body).ink)
      (by simp [docInk]) (line + texts.length + (DeclShape.type n r body).height) (by omega) rfl
      (out + texts.length + 2 + (DeclShape.type n r body).height) decl.keyword
    refine ⟨last, out', leads_declsFrom_cons hdecl.starts hink (by omega) hwrite ?_ keyword⟩
    have htexts : texts.isEmpty = false := by simpa using hdoc.ne_nil
    simpa [documentedInk, htexts] using hrest

/-! ## Files -/

/-- The trees of imports that may have changed places, which are left out when there is nothing to
import. -/
inductive MayBeSortedImports (t : LineTable) (line : Nat) : List String → List Decl → Prop
  | nil : MayBeSortedImports t line [] []
  | imports {paths : List String} {decl : Decl} : paths ≠ [] → AreSortedImports t line paths decl →
      MayBeSortedImports t line paths [decl]

/-- The line on which the imports end, or else the package clause. -/
def importsEnd (paths : List String) : Nat := if paths.isEmpty then 3 else 6 + paths.length

/-- The ink of a file. -/
def fileInk (header package : String) (paths : List String)
    (ss : List (List String × DeclShape)) : List Ink :=
  fencedInk header ++ frontEnd header ++ inkOf ("package " ++ package) ++
    (if paths.isEmpty then [] else .char '\n' :: .char '\n' :: importsInk paths) ++
      ss.flatMap documentedInk ++ [.char '\n']

/-- The imports and declarations of a file are written. -/
theorem leads_imports_decls {paths : List String} {ss : List (List String × DeclShape)}
    {imports others : List Decl} {gs : List WaitingGroup}
    (himports : MayBeSortedImports t 5 paths imports)
    (hothers : AreDocumented t (importsEnd paths + 2) ss others gs)
    (hquiet : ∀ m ≤ importsEnd paths, QuietOn t gs m) {ink : List Ink} (hink : ink ≠ [])
    (out asked : Nat) :
    ∃ last out', Leads t gs [] (Pen.declsFrom (Pen.ofDepth (d + 7)) "" (imports ++ others))
      (.stopped 0 ink 3 out asked) ()
      (.stopped 0 (ink ++ (if paths.isEmpty then [] else
        .char '\n' :: .char '\n' :: importsInk paths) ++ ss.flatMap documentedInk) last out'
        asked) := by
  cases himports with
  | nil =>
    rw [List.nil_append, List.isEmpty_nil, if_pos rfl, List.append_nil]
    exact leads_decls hothers hink (Nat.succ_pos 2) rfl out asked ""
  | @imports _ decl hpaths hdecl =>
    have hempty : paths.isEmpty = false := by simpa using hpaths
    have hend : importsEnd paths = 5 + 1 + paths.length := by
      rw [importsEnd, hempty, if_neg Bool.false_ne_true]
    rw [hempty, if_neg Bool.false_ne_true]
    rw [hend] at hothers hquiet
    have hwrite := draws_imports (d := d + 5) (ink ++ [.char '\n', .char '\n']) (out + 2) asked
      (σ := ((Sheet.stopped 0 ink 3 out asked).hold .newline).hold .newline) hdecl hpaths
      (by simp [Sheet.tabs]) hquiet
    have hstarts : t.line decl.span.start = 5 ∧
        (decl.keyword == "func" && decide (t.line decl.span.stop > 5)) = false := by
      obtain ⟨hstart, -, -, -⟩ := hdecl
      exact ⟨hstart.start, rfl⟩
    have hne : ink ++ [.char '\n', .char '\n'] ++ importsInk paths ≠ [] := by simp
    obtain ⟨last, out', hrest⟩ := leads_decls (d := d) hothers hne (by omega) rfl
      (out + 2 + 1 + paths.length) asked decl.keyword
    refine ⟨last, out', leads_declsFrom_cons hstarts hink (Nat.le_refl 5) hwrite ?_ ""⟩
    simpa using hrest

/-- A file is written with the comment at its front and the documentation of its declarations. -/
theorem exists_write_file {header package : String} {paths : List String}
    {ss : List (List String × DeclShape)} {tree : SourceTree} {imports others : List Decl}
    {g : WaitingGroup} {gs : List WaitingGroup} (hfront : g.IsFront t tree.start header)
    (hstart : t.Has 3 "package" tree.start) (hname : tree.name.IsOn t 3 package)
    (hdecls : tree.decls = imports ++ others) (himports : MayBeSortedImports t 5 paths imports)
    (hothers : AreDocumented t (importsEnd paths + 2) ss others gs)
    (hquiet : ∀ m ≤ importsEnd paths, QuietOn t gs m) :
    ∃ p : Page, (tree.write (Pen.ofDepth (d + 7))).run (frontPage t (g :: gs) ⟨0, 1, 1⟩) = ((), p) ∧
      p.finish.ink.reverse = fileInk header package paths ss ∧ p.finish.newConstraints = [] ∧
        p.finish.oldConstraints = [] := by
  have hthree : QuietOn t gs 3 := hquiet 3 (by unfold importsEnd; split <;> omega)
  obtain ⟨out, p₁, hrun, hp₁⟩ := exists_draws_front hfront hstart hthree
  have hpackage := (Adds.blank (Inks.name (d := d + 6) 0 1 hname
    hthree)).stopped 0 out 0 (fencedInk header ++ frontEnd header ++ inkOf "package")
  have hne :
      fencedInk header ++ frontEnd header ++ inkOf "package" ++ inkOf (" " ++ package) ≠ [] := by
    simp [fencedInk]
  obtain ⟨last, out', hall⟩ := leads_imports_decls (d := d) himports hothers hquiet hne out 0
  rw [← hdecls] at hall
  -- At the end of the file only a line break is held back, and no comment waits.
  have hend := @Draws.hold t [] (.stopped 0 (fencedInk header ++
    frontEnd header ++ inkOf "package" ++ inkOf (" " ++ package) ++ (if paths.isEmpty then [] else
      .char '\n' :: .char '\n' :: importsInk paths) ++ ss.flatMap documentedInk) last out' 0)
    .newline (by rfl)
  have hrest := Leads.seq hpackage (hall.seq hend)
  rw [bind_assoc] at hrest
  obtain ⟨p, hp, hshows⟩ := hrest p₁ hp₁
  refine ⟨p, ?_, ?_⟩
  · unfold SourceTree.write
    rw [StateT.run_bind, hrun]
    exact hp
  · have hdone : Page.Holds t [] _ { p with ready := false } := { hshows.toHolds with }
    have hflush : p.finish = ({ p with ready := false } : Page).releaseAll := by
      rw [Page.finish, Page.flush, hdone.hasCommentBefore (by simp [Quiet])]
      rfl
    have hreleased := hdone.releaseAll
    rw [← hflush] at hreleased
    refine ⟨?_, hreleased.newConstraints, hreleased.oldConstraints⟩
    rw [hreleased.ink, List.reverse_reverse]
    simp [Sheet.release, Sheet.hold, Sheet.stopped, Sheet.putSpaces, Sheet.putSpace, Page.isBreak,
      fileInk, inkOf]

end NodeFamily.Layout
