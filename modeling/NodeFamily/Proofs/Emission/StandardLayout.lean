import NodeFamily.Proofs.Emission.ImportPaths
import NodeFamily.Proofs.Emission.PlainText
import NodeFamily.Proofs.Layout.CommentPlaces
import NodeFamily.Proofs.Layout.ImportSorting

/-!
# The standard layout of a plain file

The standard layout of the draft of a plain file is the text of the file
(`SourceFile.format?_draft`).
The draft is read as declarations with three groups of comments, the first of which is the opening
comment and the others of which are documentation (`SourceFile.IsRead.exists_groups`). Its imports
are sorted by their paths (`SourceFile.IsRead.exists_sorted`), and its declarations are written with
the documentation above them and the types of their fields in columns. So every file is rendered as
the standard layout of its draft (`SourceFile.render?_eq`).
-/

namespace NodeFamily.Emission

open Layout

/-! ## Comments that are written as they are -/

/-- The documentation of the interface of all nodes is laid out as it is. -/
theorem isDocumentation_nodeRemarks : IsDocumentation (nodeRemarks.map commentText) := by
  decide +kernel

/-- The documentation of the interface of all visitors is laid out as it is. -/
theorem isDocumentation_visitorRemarks : IsDocumentation (visitorRemarks.map commentText) := by
  decide +kernel

/-- A text that ends with something else than what is dropped from its end stays as it is. -/
theorem dropEndWhile_concat {p : Char → Bool} {c : Char} (h : p c = false) (cs : List Char) :
    Text.dropEndWhile p (cs ++ [c]) = cs ++ [c] := by
  simp [Text.dropEndWhile, h]

namespace SourceFile

variable {f : SourceFile}

/-- The opening comment as it is cut out of the draft. -/
theorem commentText_remark (f : SourceFile) : commentText f.remark = f.header := by
  have hopening : headerStart.toList = '/' :: '/' :: ' ' :: "Code generated by ".toList := by
    decide
  have hchars : (Piece.comment f.remark).chars = (headerText f.generatorName.shown).toList := by
    rw [Piece.chars]
    unfold remark headerText headerEnd
    simp only [String.toList_append, hopening, List.cons_append]
  rw [commentText, hchars, header]
  refine congrArg String.ofList (List.filter_congr fun c _ => ?_)
  rw [bne, beq_eq_decide, decide_not]

/-- The opening comment begins with a capital letter after the marks and ends with a dot. -/
theorem exists_toList_header (f : SourceFile) :
    ∃ inner, f.header.toList = '/' :: '/' :: ' ' :: 'C' :: (inner ++ ['.']) := by
  have hopening : headerStart.toList.filter (· ≠ '\r') =
      '/' :: '/' :: ' ' :: 'C' :: "ode generated by ".toList := by decide
  have hending : headerEnd.toList.filter (· ≠ '\r') = ". DO NOT EDIT".toList ++ ['.'] := by decide
  rw [header, headerText, String.toList_ofList, String.toList_append, String.toList_append,
    List.filter_append, List.filter_append, hopening, hending, ← List.append_assoc]
  exact ⟨_, rfl⟩

/-- The opening comment is prose, whatever the generator is. -/
theorem isProse_header (f : SourceFile) : IsProse f.header := by
  obtain ⟨inner, hinner⟩ := f.exists_toList_header
  have hdot : Text.isBlank '.' = false := by decide
  refine ⟨?_, ?_, ?_, ?_, ?_⟩
  · rw [hinner]
    rfl
  · rw [hinner]
    exact dropEndWhile_concat hdot ('/' :: '/' :: ' ' :: 'C' :: inner)
  · rw [hinner]
    rfl
  · rw [hinner]
    rfl
  · -- After the marks and the space comes a letter, and so no mark of a constraint.
    have htrim : Text.trimChars (' ' :: 'C' :: (inner ++ ['.'])) = 'C' :: (inner ++ ['.']) :=
      dropEndWhile_concat hdot ('C' :: inner)
    rw [hinner, Constraint.oldForm?, List.drop_succ_cons, List.drop_succ_cons, List.drop_zero, htrim]
    rfl

/-! ## The draft as it is read -/

/-- The groups of comments in a draft: the opening comment, which is on the first line, and the
documentation of the two interfaces. -/
theorem IsRead.exists_groups {source : Source} {tree : SourceTree} (h : f.IsRead source tree) :
    ∃ g₁ g₂ g₃, source.comments = [g₁, g₂, g₃] ∧ IsGroupFrom source.table 1 [f.remark] g₁ ∧
      IsGroupFrom source.table f.start nodeRemarks g₂ ∧
        IsGroupFrom source.table (f.start + 6) visitorRemarks g₃ := by
  have hlines : (nodePart (resultParam f.schema)).lines.length = 6 := rfl
  obtain ⟨g₁, rest₁, hrest₁, hg₁, g₂, rest₂, rfl, hg₂, g₃, rest₃, rfl, hg₃, rfl⟩ := h.groups
  rw [f.length_lines_frontPart] at hg₂ hg₃
  rw [hlines] at hg₃
  exact ⟨g₁, g₂, g₃, hrest₁, isGroupFrom_of_lines (List.cons_ne_nil _ _) hg₁,
    isGroupFrom_of_lines (List.cons_ne_nil _ _) hg₂, isGroupFrom_of_lines (List.cons_ne_nil _ _) hg₃⟩

end SourceFile

/-- Declarations without documentation, with an empty line after each. -/
theorem areDocumented_placed {t : LineTable} {ss : List DeclShape} {line : Nat} {decls : List Decl}
    (h : AreDecls t (placed line ss) decls) : AreDocumented t line (ss.map ([], ·)) decls [] := by
  induction ss generalizing line decls with
  | nil =>
    obtain rfl := List.forall₂_nil_left_iff.1 h
    exact .nil
  | cons s ss ih =>
    obtain ⟨decl, rest, hdecl, hrest, rfl⟩ := List.forall₂_cons_left_iff.1 h
    refine .bare hdecl (ih ?_)
    rwa [Nat.add_assoc, ← s.height_add_one, ← Nat.add_assoc] at hrest

namespace SourceFile

variable {f : SourceFile}

/-- The declarations of a draft have the documentation above them. -/
theorem areDocumented_documented {cs : List Char} {decls : List Decl} {g₂ g₃ : List Comment}
    (h : AreDecls (.ofText cs) f.placedDecls decls)
    (hg₂ : IsGroupFrom (.ofText cs) f.start nodeRemarks g₂)
    (hg₃ : IsGroupFrom (.ofText cs) (f.start + 6) visitorRemarks g₃) :
    AreDocumented (.ofText cs) f.start f.documented decls
      [.of (.ofText cs) g₂, .of (.ofText cs) g₃] := by
  have hreturn : (∀ s ∈ nodeRemarks, '\r' ∉ s.toList) ∧ ∀ s ∈ visitorRemarks, '\r' ∉ s.toList := by
    decide +kernel
  obtain ⟨node, rest, hnode, hrest, rfl⟩ := List.forall₂_cons_left_iff.1 h
  obtain ⟨visitor, others, hvisitor, hothers, rfl⟩ := List.forall₂_cons_left_iff.1 hrest
  have hnodeStart : (LineTable.ofText cs).Has (f.start + 2) "type" node.span.start := by
    cases hnode with
    | type hstart => exact hstart
  have hvisitorStart : (LineTable.ofText cs).Has (f.start + 7) "type" visitor.span.start := by
    cases hvisitor with
    | type hstart => exact hstart
  -- The two interfaces have the two groups of comments, and the declarations after them have none.
  refine .documented hnode isDocumentation_nodeRemarks
    (hg₂.isAbove hreturn.1 (List.cons_ne_nil _ _) hnodeStart) ?_ (fun m hm => hg₃.quietOn ?_ []) ?_
  · exact List.forall_mem_singleton.2 ⟨trivial, trivial⟩
  · exact Nat.lt_of_le_of_lt hm
      (by simp [DeclShape.height, DeclShape.lines, nodeRemarks, TypeBody.rows])
  refine .documented hvisitor isDocumentation_visitorRemarks
    (hg₃.isAbove hreturn.2 (List.cons_ne_nil _ _) hvisitorStart) ?_
    (fun m _ => by simp [QuietOn, Quiet]) ?_
  · exact List.forall_mem_map.2 fun _ _ => ⟨trivial, trivial⟩
  · refine areDocumented_placed ?_
    rwa [Nat.add_assoc (f.start + 7), ← DeclShape.height_add_one, ← Nat.add_assoc] at hothers

/-- The imports of a draft are sorted by their paths, and nothing else changes places. -/
theorem IsRead.exists_sorted {source : Source} {tree : SourceTree} (h : f.IsRead source tree)
    {g₁ g₂ g₃ : List Comment} (hcomments : source.comments = [g₁, g₂, g₃])
    (hg₁ : IsGroupFrom source.table 1 [f.remark] g₁)
    (hg₂ : IsGroupFrom source.table f.start nodeRemarks g₂) :
    ∃ imports others, ImportOrder.sortDecls source.table source.comments tree.decls =
        (source.table, source.comments, imports ++ others) ∧
      MayBeSortedImports source.table 5 (importPaths f.imports) imports ∧
        AreDecls source.table f.placedDecls others := by
  rw [hcomments]
  rw [h.table] at hg₁ hg₂ ⊢
  obtain ⟨imports, others, hdecls, himports, hothers⟩ := h.isTree.decls
  rw [h.table] at himports hothers
  have hkeyword : ∀ decl ∈ others.head?, decl.keyword ≠ "import" := by
    obtain ⟨node, rest, hnode, -, rfl⟩ := List.forall₂_cons_left_iff.1 hothers
    cases hnode with
    | type => simp [Decl.keyword]
  -- The second group ends below all imports, so that sorting them moves no comment.
  have hapart : ImportOrder.AreApart (.ofText f.draftText.toList) (5 + 1)
      (5 + (draftPaths f.imports).length) [g₁, g₂, g₃] := by
    refine .mk hg₁.isPosition (hg₁.start.symm ▸ by decide) ?_
    intro g' hg'
    obtain rfl : g₂ = g' := Option.some.inj hg'
    have hstop : (LineTable.ofText f.draftText.toList).line (Page.groupStop g₂) + 1 = f.start + 2 :=
      hg₂.stop
    refine ⟨hg₂.isStop, ?_⟩
    have hline : 5 + (draftPaths f.imports).length <
        (LineTable.ofText f.draftText.toList).line (Page.groupStop g₂) := by
      rw [start, importsEnd] at hstop
      split at hstop
      · next hempty =>
        rw [List.isEmpty_iff.1 hempty, List.length_nil]
        omega
      · omega
    exact hline
  obtain ⟨imports', hsort, hsorted⟩ := ImportOrder.sortDecls_eq (nodup_draftPaths f.imports) himports
    hkeyword hapart
  rw [mergeSort_draftPaths] at hsorted
  exact ⟨imports', others, hdecls ▸ hsort, hsorted, hothers⟩

/-- The imports end on the same line when they are sorted. -/
theorem importsEnd_importPaths (imports : List String) :
    importsEnd (importPaths imports) = importsEnd (draftPaths imports) := by
  rw [← mergeSort_draftPaths]
  simp [importsEnd, ← List.length_eq_zero_iff]

/-- The lines of a plain file make its text. -/
theorem ofList_fileTexts (h : f.isPlain = true) :
    String.ofList (f.header.toList ++
      (if f.header.toList.any Page.isBreak then ['\n'] else ['\n', '\n']) ++
        lineChars (fileTexts f.package (importPaths f.imports) f.documented)) = f.text := by
  -- The name of the generator has no line feed, so that only a form feed breaks the comment.
  have hbreak : f.header.toList.any Page.isBreak = f.header.toList.contains '\x0c' := by
    rw [Bool.eq_iff_iff, List.any_eq_true, List.contains_iff_mem]
    constructor
    · rintro ⟨c, hc, hbreak⟩
      obtain rfl | rfl : c = '\n' ∨ c = '\x0c' := by simpa [Page.isBreak] using hbreak
      · exact absurd hc (not_mem_header h)
      · exact hc
    · exact fun hc => ⟨_, hc, rfl⟩
  rw [fileTexts_documented, ← toList_textOfBlocks, hbreak, text, ← String.toList_inj]
  simp only [String.toList_ofList, String.toList_append]
  split <;> rfl

/-- The draft of a plain file is laid out as the text of the file. -/
theorem formatText?_draftText (h : f.isPlain = true) : formatText? f.draftText = some f.text := by
  obtain ⟨source, tree, hread⟩ := exists_isRead h
  obtain ⟨g₁, g₂, g₃, hcomments, hg₁, hg₂, hg₃⟩ := hread.exists_groups
  obtain ⟨imports, others, hsort, himports, hothers⟩ := hread.exists_sorted hcomments hg₁ hg₂
  have hstart := hread.isTree.start
  have hname := hread.isTree.name
  rw [formatText?, hread.cut]
  simp only [Option.bind_eq_bind, Option.bind_some, hread.package, if_true]
  rw [Source.formatFile?, hread.parsed]
  simp only [Option.bind_eq_bind, Option.bind_some, hsort, ← ofList_fileTexts h]
  rw [hread.table] at *
  refine congrArg some (Source.layOut_eq hcomments ?_ hstart hname rfl himports
    ?_ ?_ (isPlainWord_of_isIdentifier (isIdentifier_package h)) (isPlainWord_documented h))
  · rw [← f.commentText_remark]
    exact hg₁.isFront (f.commentText_remark ▸ f.isProse_header) hstart.isPosition
      (hstart.start.symm ▸ by decide)
  · rw [importsEnd_importPaths]
    exact areDocumented_documented hothers hg₂ hg₃
  · intro m hm
    rw [importsEnd_importPaths] at hm
    exact hg₂.quietOn (Nat.lt_succ_of_lt (Nat.lt_succ_of_le hm)) _

/-- The standard layout of the draft of a plain file is the text of the file. -/
theorem format?_draft (h : f.isPlain = true) : format? f.draft = some f.text := by
  obtain ⟨name, hname, -⟩ := exists_generatorName h
  rw [f.format?_draft_eq, hname, Option.bind_some, formatText?_draftText h]

/-- Every file is rendered as the standard layout of its draft. -/
theorem render?_eq (f : SourceFile) : f.render? = format? f.draft := by
  rw [render?]
  split
  · next h => rw [format?_draft h]
  · rfl

end SourceFile

end NodeFamily.Emission
