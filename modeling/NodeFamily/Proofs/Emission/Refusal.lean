import NodeFamily.Proofs.Acceptance
import NodeFamily.Proofs.TitleCase

/-!
# Only plain files are generated

The check of a schema lets a field through whose title form is no identifier. Such a file is not
plain, so it goes through the layout as a draft, and there it is refused: what title case can break
an identifier with is a character that stands nowhere in source text but in comments and quoted
texts (`plainLexeme?_stray`), and the first torn identifier is reached by cutting the pieces before
it (`run_torn`). Hence every text that is generated is that of a plain file, as
`generateSchema_eq_ok_iff` states together with the other conditions.
-/

namespace NodeFamily

open Layout (Piece Scan)

namespace Layout

/-! ## Torn identifiers -/

/-- An identifier with something after it that begins with a character which stands in no
identifier, outside of ASCII. -/
def IsTorn (t : String) : Prop :=
  ∃ w c rest, t.toList = w.toList ++ c :: rest ∧ isIdentifier w = true ∧
    continuesIdentifier c = false ∧ 128 ≤ c.toNat

/-- A torn identifier is none. -/
theorem IsTorn.not_isIdentifier {t : String} (h : IsTorn t) : isIdentifier t = false := by
  obtain ⟨w, c, rest, htext, -, hc, -⟩ := h
  rw [← Bool.not_eq_true]
  intro ht
  have hcont := Emission.continuesIdentifier_of_mem ht (c := c) (by simp [htext])
  rw [hc] at hcont
  exact absurd hcont Bool.false_ne_true

/-- A character outside of ASCII is none of ASCII. -/
theorem ne_of_le_toNat {c d : Char} (hc : 128 ≤ c.toNat) (hd : d.toNat < 128) : c ≠ d := by
  rintro rfl
  exact Nat.not_le.2 hd hc

/-- A character outside of ASCII that stands in no identifier begins no lexical element. -/
theorem plainLexeme?_stray {c : Char} (hc : continuesIdentifier c = false) (hcode : 128 ≤ c.toNat)
    (rest : List Char) : plainLexeme? (c :: rest) = none := by
  have hopens : opensIdentifier c = false := (Bool.or_eq_false_iff.1 hc).1
  have hdigit : c.isDigit = false := by
    by_contra h
    simp only [Char.isDigit, Bool.not_eq_false, Bool.and_eq_true, decide_eq_true_eq,
      UInt32.le_iff_toNat_le] at h
    exact Nat.not_le.2 (by decide) (Nat.le_trans hcode h.2)
  have hmarks : ∀ d ∈ ['.', ';', '\x22', '\x27', '\x60'], d.toNat < 128 :=
    List.all_iff_forall_prop.1 (by decide)
  have hne : ∀ d ∈ ['.', ';', '\x22', '\x27', '\x60'], c ≠ d := fun d hd =>
    ne_of_le_toNat hcode (hmarks d hd)
  have hoperators : ∀ op ∈ operators, op.toList.isPrefixOf (c :: rest) = false := by
    have hascii : ∀ op ∈ operators, (op.toList.head?.any fun d => d.toNat < 128) = true := by decide
    intro op hop
    obtain ⟨d, hd, hlt⟩ := (Option.any_eq_true _ _).1 (hascii op hop)
    obtain ⟨ds, hds⟩ := List.head?_eq_some_iff.1 hd
    have hne : d ≠ c := (ne_of_le_toNat hcode (of_decide_eq_true hlt)).symm
    rw [hds, List.isPrefixOf_cons_cons, beq_false_of_ne hne, Bool.false_and]
  have hfind : operators.find? (fun op => op.toList.isPrefixOf (c :: rest)) = none :=
    List.find?_eq_none.2 fun op hop => Bool.eq_false_iff.1 (hoperators op hop)
  unfold plainLexeme?
  simp [hopens, hdigit, hne, hfind]

/-- Cutting ends without success at such a character. -/
theorem run_stray {c : Char} (hc : continuesIdentifier c = false) (hcode : 128 ≤ c.toNat)
    (rest : List Char) (size fuel : Nat) (s : Scan) : Scan.run size fuel s (c :: rest) = none := by
  have hmarks : ∀ d ∈ ['\n', ' ', '\t', '\r', '/'], d.toNat < 128 :=
    List.all_iff_forall_prop.1 (by decide)
  have hne : ∀ d ∈ ['\n', ' ', '\t', '\r', '/'], c ≠ d := fun d hd =>
    ne_of_le_toNat hcode (hmarks d hd)
  cases fuel with
  | zero => rfl
  | succ fuel =>
    rw [Scan.run]
    simp [hne, plainLexeme?_stray hc hcode]

namespace Piece

/-- A piece that is well formed or a torn identifier. -/
def IsSoundOrTorn (p : Piece) : Prop := p.IsSound ∨ ∃ t, p = .name t ∧ IsTorn t

/-- Cutting ends without success at a torn identifier. -/
theorem run_torn_name {t : String} (ht : IsTorn t) (ps : List Piece) (size fuel : Nat) (s : Scan) :
    Scan.run size fuel s (charsOf (.name t :: ps)) = none := by
  obtain ⟨w, c, rest, htext, hw, hc, hcode⟩ := ht
  have hshape := (of_isIdentifier hw).1
  cases fuel with
  | zero => rfl
  | succ fuel =>
    have hhead : ∀ d ∈ (c :: rest ++ charsOf ps).head?, continuesIdentifier d = false := by
      simpa using hc
    have hword := plainLexeme?_word hshape hhead
    rw [charsOf_cons, chars, htext, List.append_assoc,
      run_plain hword (head_not_mem_of_shape hshape _), List.cons_append,
      run_stray hc hcode]

/-- What can stand before a name does not depend on the name. -/
theorem standsBefore_some_name (p : Piece) (n m : String) :
    p.standsBefore (some (.name n)) = p.standsBefore (some (.name m)) := by
  cases p <;> rfl

/-- A torn identifier at the front can be told apart from its end, so that what comes first is well
formed. -/
theorem exists_isSound_head {ps : List Piece} (hps : ∀ p ∈ ps, p.IsSoundOrTorn) :
    ∃ qs, charsOf qs = charsOf ps ∧ (∀ q ∈ qs.head?, q.IsSound) ∧
      ∀ p : Piece, p.standsBefore qs.head? = p.standsBefore ps.head? := by
  cases ps with
  | nil => exact ⟨[], rfl, by simp, fun _ => rfl⟩
  | cons p ps =>
    rcases hps p List.mem_cons_self with hp | ⟨t, rfl, w, c, rest, htext, hw, -⟩
    · exact ⟨p :: ps, rfl, by simpa using hp, fun _ => rfl⟩
    · refine ⟨.name w :: .name (String.ofList (c :: rest)) :: ps, ?_, by simpa [IsSound] using hw,
        fun p => standsBefore_some_name p w t⟩
      simp [charsOf_cons, chars, htext]

/-- Cutting ends without success at the first torn identifier, since the pieces before it are taken
one after the other. -/
theorem run_torn {ps : List Piece} (hps : ∀ p ∈ ps, p.IsSoundOrTorn) (h : fits ps = true)
    {t : String} (ht : IsTorn t) (hmem : .name t ∈ ps) (size fuel : Nat) (s : Scan) :
    Scan.run size fuel s (charsOf ps) = none := by
  induction ps generalizing fuel s with
  | nil => exact absurd hmem List.not_mem_nil
  | cons p ps ih =>
    rw [List.forall_mem_cons] at hps
    obtain ⟨hstands, hfits⟩ := Bool.and_eq_true_iff.1 h
    rcases hps.1 with hp | ⟨u, rfl, hu⟩
    · cases fuel with
      | zero => rfl
      | succ fuel =>
        have hrest : .name t ∈ ps := by
          rcases List.mem_cons.1 hmem with rfl | hmem
          · exact absurd hp (Bool.eq_false_iff.1 ht.not_isIdentifier)
          · exact hmem
        -- A step looks at the piece after it, which may be the torn one.
        obtain ⟨qs, hchars, hhead, hbefore⟩ := exists_isSound_head hps.2
        obtain ⟨s', hrun, -, -⟩ := run_piece hp hhead ((hbefore p).trans hstands) size fuel s
        rw [charsOf_cons, ← hchars, ← charsOf_cons, hrun, hchars]
        exact ih hps.2 hfits hrest fuel s'
    · exact run_torn_name hu ps size fuel s

end Piece

/-! ## Texts without a layout -/

/-- A text without lexical elements has no layout. -/
theorem formatText?_eq_none {text : String} (h : lexemes? text.toList = none) :
    formatText? text = none := by
  have hsource : Source.ofChars? text.toList = none := by rw [Source.ofChars?, h, Option.map_none]
  rw [formatText?, hsource]
  rfl

/-- A text with a forbidden character has no layout. -/
theorem formatText?_of_isForbidden {text : String} {c : Char} (hc : c ∈ text.toList)
    (h : isForbidden c = true) : formatText? text = none := by
  refine formatText?_eq_none ?_
  rw [lexemes?, if_pos (List.any_eq_true.2 ⟨c, hc, h⟩)]

/-- A text of pieces one of which is a torn identifier has no layout. -/
theorem formatText?_of_isTorn {text : String} {ps : List Piece} (htext : text.toList = Piece.charsOf ps)
    (hps : ∀ p ∈ ps, p.IsSoundOrTorn) (hfits : Piece.fits ps = true) {t : String} (ht : IsTorn t)
    (hmem : .name t ∈ ps) : formatText? text = none := by
  refine formatText?_eq_none ?_
  rw [lexemes?, htext, Piece.run_torn hps hfits ht hmem, Option.map_none, ite_self]

end Layout

namespace Emission

open Layout (IsTorn)

/-! ## Drafts with torn identifiers -/

/-- A line of a block is a line of the blocks with lines between them. -/
theorem mem_intercalate {α : Type} {empty : α} {blocks : List (List α)} {block : List α}
    (hblock : block ∈ blocks) {line : α} (hline : line ∈ block) :
    line ∈ List.intercalate [empty] blocks := by
  induction blocks with
  | nil => exact absurd hblock List.not_mem_nil
  | cons first blocks ih =>
    cases blocks with
    | nil =>
      obtain rfl := List.mem_singleton.1 hblock
      simpa using hline
    | cons next blocks =>
      rw [List.intercalate_cons_cons]
      rcases List.mem_cons.1 hblock with rfl | hblock
      · exact List.mem_append_left _ (List.mem_append_left _ hline)
      · exact List.mem_append_right _ (ih hblock)

/-- A line of a block is a line of the draft. -/
theorem SourceFile.mem_draftLines {f : SourceFile} {block : List (List Piece)}
    (hblock : block ∈ f.draftBlocks) {line : List Piece} (hline : line ∈ block) :
    line ∈ f.draftLines :=
  List.mem_cons_of_mem _ (List.mem_cons_of_mem _ (List.mem_append_left _
    (mem_intercalate hblock hline)))

/-- The blocks of a variant are in the draft. -/
theorem SourceFile.mem_draftBlocks {f : SourceFile} {v : Variant} (hv : v ∈ f.schema.variants)
    {block : List (List Piece)}
    (h : block ∈ (VariantShape.of f.exportFields (resultParam f.schema) v).blocks
      (resultParam f.schema)) : block ∈ f.draftBlocks :=
  List.mem_append_right _ (List.mem_flatMap.2 ⟨_, List.mem_map_of_mem hv, h⟩)

/-- The file with its fields under their own names. -/
def SourceFile.unexported (f : SourceFile) : SourceFile := { f with exportFields := false }

/-- What holds of all pieces of a variant with its fields under their own names, and of the
identifiers of its fields, holds of all pieces of the variant. -/
theorem VariantShape.forall_mem_blocks {P : Piece → Prop} {exported : Bool} {r : String}
    {v : Variant}
    (h : ∀ block ∈ (VariantShape.of false r v).blocks r, ∀ line ∈ block, ∀ p ∈ line, P p)
    (hident : ∀ g ∈ v.fields, P (.name (fieldIdent exported g.name))) :
    ∀ block ∈ (VariantShape.of exported r v).blocks r, ∀ line ∈ block, ∀ p ∈ line, P p := by
  simp only [VariantShape.blocks, List.forall_mem_cons, List.not_mem_nil, false_implies,
    implies_true, and_true] at h ⊢
  obtain ⟨hstruct, hnode, haccept, hconstructor⟩ := h
  refine ⟨?_, hnode, haccept, ?_⟩
  · simp only [structBlock, of, List.forall_mem_append, List.map_map, List.forall_mem_map]
      at hstruct ⊢
    obtain ⟨⟨hfirst, hfields⟩, hlast⟩ := hstruct
    refine ⟨⟨hfirst, fun g hg => ?_⟩, hlast⟩
    have hfield := hfields g hg
    simp only [Function.comp_apply, FieldShape.of, List.forall_mem_append, List.forall_mem_cons]
      at hfield ⊢
    obtain ⟨⟨htab, -, hblank⟩, htype⟩ := hfield
    exact ⟨⟨htab, hident g hg, hblank⟩, htype⟩
  · have hparameters : (VariantShape.of exported r v).parameters =
        (VariantShape.of false r v).parameters := by
      simp [parameters, of, FieldShape.of, Function.comp_def]
    have hinits : (∀ p ∈ (VariantShape.of false r v).initialisers, P p) →
        ∀ p ∈ (VariantShape.of exported r v).initialisers, P p := by
      simp only [initialisers, of, forall_mem_commaSeparated, List.map_map, List.forall_mem_map,
        List.length_map]
      rintro ⟨hitems, hcomma⟩
      refine ⟨fun g hg => ?_, hcomma⟩
      have hitem := hitems g hg
      simp only [Function.comp_apply, FieldShape.of, List.forall_mem_cons] at hitem ⊢
      exact ⟨hident g hg, hitem.2⟩
    simp only [constructorBlock, constructorHead, constructorReturn, List.forall_mem_cons,
      List.forall_mem_append, hparameters] at hconstructor ⊢
    obtain ⟨hhead, ⟨hreturn, hname, hopen, hinitialisers, hclose⟩, hend⟩ := hconstructor
    exact ⟨hhead, ⟨hreturn, hname, hopen, hinits hinitialisers, hclose⟩, hend⟩

/-- A piece of the draft of a file whose field names are plain is well formed, when each of the
identifiers that the fields are emitted under is one or is torn. -/
theorem SourceFile.isSoundOrTorn_draftLines {f : SourceFile} (h : f.unexported.isPlain = true)
    (hident : ∀ v ∈ f.schema.variants, ∀ g ∈ v.fields,
      isIdentifier (fieldIdent f.exportFields g.name) = true ∨
        IsTorn (fieldIdent f.exportFields g.name)) :
    ∀ line ∈ f.draftLines, ∀ p ∈ line, p.IsSoundOrTorn := by
  have hsound : ∀ block ∈ f.unexported.draftBlocks, ∀ line ∈ block, ∀ p ∈ line,
      p.IsSoundOrTorn := fun block hblock line hline p hp =>
    .inl (SourceFile.isSound_draftLines h line (SourceFile.mem_draftLines hblock hline) p hp)
  have hvisitors : visitorLines (resultParam f.schema) f.unexported.shapes =
      visitorLines (resultParam f.schema) f.shapes := by
    simp [visitorLines, SourceFile.shapes, SourceFile.unexported, VariantShape.of,
      VariantShape.visitorLine, VariantShape.visitMethod]
  refine SourceFile.forall_mem_draftLines (by simp) ?_ ?_
  · exact fun p hp => .inl (SourceFile.isSound_draftLines h _ List.mem_cons_self p hp)
  · intro block hblock
    rcases List.mem_append.1 hblock with hblock | hblock
    · -- The preamble and the interfaces are the same in both files.
      refine hsound block (List.mem_append_left _ ?_)
      rw [← hvisitors] at hblock
      exact hblock
    · obtain ⟨shape, hshape, hblock⟩ := List.mem_flatMap.1 hblock
      obtain ⟨v, hv, rfl⟩ := List.mem_map.1 hshape
      refine VariantShape.forall_mem_blocks ?_ ?_ block hblock
      · exact fun block hblock =>
          hsound block (SourceFile.mem_draftBlocks (f := f.unexported) hv hblock)
      · exact fun g hg => (hident v hv g hg).imp id fun htorn => ⟨_, rfl, htorn⟩

/-- A file that is plain but for torn identifiers has no layout. -/
theorem SourceFile.formatText?_draftText_of_isTorn {f : SourceFile} (h : f.unexported.isPlain = true)
    (hident : ∀ v ∈ f.schema.variants, ∀ g ∈ v.fields,
      isIdentifier (fieldIdent f.exportFields g.name) = true ∨
        IsTorn (fieldIdent f.exportFields g.name))
    {v : Variant} (hv : v ∈ f.schema.variants) {g : Field} (hg : g ∈ v.fields)
    (htorn : IsTorn (fieldIdent f.exportFields g.name)) :
    Layout.formatText? f.draftText = none := by
  have hline : [.blank '\t', .name (fieldIdent f.exportFields g.name), .blank ' '] ++
      typePieces (FieldShape.of f.exportFields (resultParam f.schema) g).type ∈ f.draftLines := by
    refine SourceFile.mem_draftLines (SourceFile.mem_draftBlocks hv List.mem_cons_self) ?_
    refine List.mem_append_left _ (List.mem_append_right _ (List.mem_map.2
      ⟨FieldShape.of f.exportFields (resultParam f.schema) g, List.mem_map_of_mem hg, rfl⟩))
  refine Layout.formatText?_of_isTorn f.toList_draftText ?_
    (Piece.fits_ofLines f.lineFits_draftLines) htorn ?_
  · intro p hp
    obtain ⟨line, hline, hp⟩ := List.mem_flatMap.1 hp
    rcases List.mem_append.1 hp with hp | hp
    · exact SourceFile.isSoundOrTorn_draftLines h hident line hline p hp
    · obtain rfl := List.mem_singleton.1 hp
      exact .inl trivial
  · exact List.mem_flatMap.2 ⟨_, hline, by simp⟩

/-- A file whose generator has a forbidden character has no layout. -/
theorem SourceFile.formatText?_draftText_of_isForbidden {f : SourceFile} {c : Char}
    (hc : c ∈ f.generatorName.toList) (h : Layout.isForbidden c = true) :
    Layout.formatText? f.draftText = none := by
  have hheader : c ∈ (headerText f.generatorName.shown).toList := by
    unfold headerText
    rw [String.toList_append, String.toList_append]
    exact List.mem_append_left _ (List.mem_append_right _ hc)
  have hdraft : c ∈ f.draftText.toList := by
    rw [SourceFile.draftText, String.toList_append, String.toList_append, String.toList_append]
    exact List.mem_append_left _ (List.mem_append_left _ (List.mem_append_left _ hheader))
  exact Layout.formatText?_of_isForbidden hdraft h

end Emission

/-! ## Generated texts -/

/-- A name is emitted as an identifier or as a torn one. -/
theorem fieldIdent_cases {n : String} (h : isName n = true) (exported : Bool) :
    isIdentifier (fieldIdent exported n) = true ∨ Layout.IsTorn (fieldIdent exported n) := by
  cases exported with
  | false => exact .inl (Emission.isIdentifier_of_isName h)
  | true => exact titleWords_cases h

/-- A file of a legal schema that is not plain has no layout, when the package is an identifier and
the generator has no line break. -/
theorem format?_draft_of_not_isPlain {o : Options} {s : Schema} (h : s.IsLegal o.exportFields)
    (hpackage : o.package = "" ∨ isIdentifier o.package = true)
    (hgenerator : '\n' ∉ o.generator.toList) (hplain : (o.file s).isPlain = false) :
    Layout.format? (o.file s).draft = none := by
  rw [Emission.SourceFile.format?_draft_eq]
  refine Option.bind_eq_none_iff.2 fun emitted hemitted => ?_
  -- Octets that are no text are not the empty text either, so that the name is the one asked for.
  obtain ⟨name, hname⟩ : ∃ name, o.generator.text? = some name := by
    by_cases hempty : o.generator = ("" : Text.Raw)
    · exact ⟨"", Text.Raw.text?_eq_some_iff.2 hempty⟩
    · exact ⟨emitted, (congrArg Text.Raw.text? (if_neg hempty)).symm.trans hemitted⟩
  have hshown : o.generator.toList = name.toList := by
    rw [Text.Raw.toList, Text.Raw.shown_eq hname]
  rw [hshown] at hgenerator
  by_cases hforbidden : ∃ c ∈ name.toList, Layout.isForbidden c = true
  · obtain ⟨c, hc, hforbidden⟩ := hforbidden
    refine Emission.SourceFile.formatText?_draftText_of_isForbidden (c := c) ?_ hforbidden
    have hne : o.generator ≠ ("" : Text.Raw) := by
      intro hempty
      rw [← hshown, hempty] at hc
      simp at hc
    rw [Emission.SourceFile.generatorName]
    simpa [Options.file, hne, hshown] using hc
  · push Not at hforbidden
    have hchars : ∀ c ∈ name.toList, c ≠ '\n' ∧ c ≠ '\x00' ∧ c ≠ '\ufeff' := by
      intro c hc
      have hnot := hforbidden c hc
      simp only [Layout.isForbidden, ne_eq, Bool.or_eq_true, beq_iff_eq, not_or] at hnot
      exact ⟨fun heq => hgenerator (heq ▸ hc), hnot⟩
    have hunexported : (o.file s).unexported.isPlain = true := by
      refine isPlain_file (o := { o with exportFields := false }) h (fun v hv g hg => ?_) hpackage
        hname hchars
      exact Emission.isIdentifier_of_isName ((h.variants v hv).fields g hg).name
    have hident : ∀ v ∈ s.classify.variants, ∀ g ∈ v.fields,
        isIdentifier (fieldIdent o.exportFields g.name) = true ∨
          Layout.IsTorn (fieldIdent o.exportFields g.name) := by
      intro v hv g hg
      obtain ⟨u, hu, rfl⟩ := List.mem_map.1 hv
      obtain ⟨k, hk, rfl⟩ := List.mem_map.1 hg
      exact fieldIdent_cases ((h.variants u hu).fields k hk).name _
    have htorn : ∃ v ∈ s.classify.variants, ∃ g ∈ v.fields,
        Layout.IsTorn (fieldIdent o.exportFields g.name) := by
      by_contra hnone
      push Not at hnone
      have hall := isPlain_file h (fun v hv g hg => ?_) hpackage hname hchars
      · rw [hall] at hplain
        exact absurd hplain (by decide)
      · have hv' : v.classify ∈ s.classify.variants := List.mem_map_of_mem hv
        have hg' : g.classify ∈ v.classify.fields := List.mem_map_of_mem hg
        exact (hident _ hv' _ hg').resolve_right (hnone _ hv' _ hg')
    obtain ⟨v, hv, g, hg, htorn⟩ := htorn
    exact Emission.SourceFile.formatText?_draftText_of_isTorn hunexported hident hv hg htorn

/-- The text of a file that is rendered is what its package and its layout leave. -/
theorem renderFile_eq_ok_iff {f : Emission.SourceFile} {code : String} :
    renderFile f.package f.generator f.imports f.exportFields (some f.schema) = .ok code ↔
      f.package ≠ "" ∧ f.render? = some code := by
  unfold renderFile
  dsimp only
  split_ifs with hempty
  · simp [hempty]
  · cases hrender : f.render? with
    | none => simp
    | some text => simp [hempty]

/-- A text is generated from a schema exactly when the schema has variants and no faults and its
file is plain, and the text is that of the file. -/
theorem generateSchema_eq_ok_iff {o : Options} {s : Schema} {code : String}
    (hgenerator : '\n' ∉ o.generator.toList) :
    generateSchema o (some s) = .ok code ↔
      s.variants ≠ [] ∧ s.faults o.exportFields = [] ∧ (o.file s).isPlain = true ∧
        (o.file s).text = code := by
  constructor
  · intro h
    change (if s.variants.isEmpty then _ else
      if !(s.check o.exportFields o.failFast).isEmpty then _ else
      if !isIdentifier (o.file s).package then _ else
      renderFile (o.file s).package (o.file s).generator (o.file s).imports (o.file s).exportFields
        (some (o.file s).schema)) = _ at h
    split_ifs at h with hempty hcheck hpackage
    have hfaults : s.faults o.exportFields = [] := by
      have hnone : s.check o.exportFields o.failFast = [] := by simpa using hcheck
      exact Schema.check_eq_nil_iff.1 hnone
    have hidentifier : o.package = "" ∨ isIdentifier o.package = true := by
      by_cases hdefault : o.package = ""
      · exact .inl hdefault
      · simpa [Options.file, hdefault] using hpackage
    obtain ⟨-, hrender⟩ := renderFile_eq_ok_iff.1 h
    unfold Emission.SourceFile.render? at hrender
    split_ifs at hrender with hplain
    · exact ⟨by simpa using hempty, hfaults, hplain, Option.some.inj hrender⟩
    · rw [format?_draft_of_not_isPlain (Schema.faults_eq_nil_iff.1 hfaults) hidentifier hgenerator
        (Bool.eq_false_iff.2 hplain)] at hrender
      exact absurd hrender (by simp)
  · rintro ⟨hne, hfaults, hplain, rfl⟩
    exact generateSchema_of_isPlain hne hfaults hplain

end NodeFamily
