import NodeFamily.Proofs.Emission.Syntax
import NodeFamily.Proofs.Layout.FileText

/-!
# The text of a plain file

The text that a plain file is written with is made of the lines of its declarations as the layout
writes them, with their documentation above them and the types of fields in columns
(`SourceFile.fileTexts_documented`). The names in them are words
(`SourceFile.isPlainWord_documented`).
-/

namespace NodeFamily.Emission

open Layout

/-! ## Declarations as texts -/

/-- The pieces of a type have its text. -/
theorem textOf_typePieces (s : TypeShape) : textOf (typePieces s) = s.text := by
  obtain ⟨starred, base⟩ := s
  rw [← String.toList_inj]
  cases starred <;> cases base <;>
    simp [textOf, typePieces, basePieces, TypeShape.text, NamedType.text, Piece.charsOf, Piece.chars]

namespace VariantShape

/-- The struct as texts. -/
theorem texts_structDecl (r : String) (v : VariantShape) :
    (v.structDecl r).texts = v.source.structBlock true r := by
  have hcells : (v.fields.map fun f => (f.ident, f.type)).map NamedField.cells =
      v.source.fields.map fun f => (f.ident, f.type) := by
    rw [source, List.map_map, List.map_map]
    refine List.map_congr_left fun f _ => ?_
    simp [NamedField.cells, FieldShape.source, textOf_typePieces]
  have hwidth : greatestWidth (v.source.fields.map fun f => (f.ident, f.type)) =
      FieldSource.greatestWidth v.source.fields := by
    rw [greatestWidth, FieldSource.greatestWidth, List.map_map]
    rfl
  have hrows : (TypeBody.struct (v.fields.map fun f => (f.ident, f.type))).texts.map ("\t" ++ ·) =
      FieldSource.structLines true v.source.fields := by
    rw [TypeBody.texts, hcells, hwidth, List.map_map, List.map_map, FieldSource.structLines,
      if_pos rfl]
    refine List.map_congr_left fun f _ => ?_
    rw [← String.toList_inj]
    simp [paddedRow, FieldSource.structLine]
  have hfirst : typeHead v.name r "struct" =
      "type " ++ v.source.applied (r ++ " any") ++ " struct \x7b" := by
    rw [← String.toList_inj]
    simp [typeHead, typeParamText, VariantSource.applied, source]
  rw [structDecl, DeclShape.texts, hrows, VariantSource.structBlock, ← hfirst]
  rfl

/-- The check as a text. -/
theorem texts_nodeDecl (v : VariantShape) : v.nodeDecl.texts = v.source.nodeBlock := by
  simp [nodeDecl, DeclShape.texts, VariantSource.nodeBlock, VariantSource.applied, source,
    TypeShape.text, NamedType.text, ValueShape.text, ← String.toList_inj]

/-- The accepting method as texts. -/
theorem texts_acceptDecl (r : String) (v : VariantShape) :
    (v.acceptDecl r).texts = v.source.acceptBlock r := by
  simp [acceptDecl, DeclShape.texts, FunctionHead.text, signatureText, NamedField.listText,
    NamedField.text, TypeShape.text, NamedType.text, ValueShape.text, VariantSource.acceptBlock,
    VariantSource.applied, VariantSource.visitMethod, visitMethod, source, ← String.toList_inj]

/-- The constructor as texts. -/
theorem texts_constructorDecl (r : String) (v : VariantShape) :
    (v.constructorDecl r).texts = v.source.constructorBlock r := by
  have hparams : NamedField.listText (v.fields.map fun f => (f.param, f.type)) =
      ", ".intercalate (v.source.fields.map FieldSource.parameter) := by
    rw [NamedField.listText, source, List.map_map, List.map_map]
    congr 1
    refine List.map_congr_left fun f _ => ?_
    simp [NamedField.text, FieldSource.parameter, FieldShape.source, textOf_typePieces]
  have hinits : (v.fields.map fun f => (f.ident, f.param)).map ValueShape.pairText =
      v.source.fields.map FieldSource.initialiser := by
    rw [source, List.map_map, List.map_map]
    rfl
  simp [constructorDecl, DeclShape.texts, FunctionHead.text, signatureText, hparams, typeParamText,
    TypeShape.text, NamedType.text, ValueShape.text, hinits, VariantSource.constructorBlock,
    VariantSource.constructorName, VariantSource.applied, source, ← String.toList_inj]

/-- The declarations of a variant as texts. -/
theorem map_texts_decls (r : String) (v : VariantShape) :
    (v.decls r).map DeclShape.texts = v.source.blocks true r := by
  rw [decls, List.map_cons, List.map_cons, List.map_cons, List.map_cons, List.map_nil,
    texts_structDecl, texts_nodeDecl, texts_acceptDecl, texts_constructorDecl, VariantSource.blocks]

end VariantShape

/-! ## The documented declarations of a file -/

/-- The declarations of a file with their documentation. -/
def SourceFile.documented (f : SourceFile) : List (List String × DeclShape) :=
  (nodeRemarks.map commentText, nodeDecl (resultParam f.schema)) ::
    (visitorRemarks.map commentText, visitorDecl (resultParam f.schema) f.shapes) ::
      f.variantDecls.map ([], ·)

/-- The interface of all nodes as texts. -/
theorem texts_nodeInterface (r : String) :
    nodeRemarks.map commentText ++ (nodeDecl r).texts = nodeInterface r := by
  have hdoc : nodeRemarks.map commentText =
      ["// " ++ nodeName ++ " is implemented by every expression variant. Accept dispatches to the",
        "// " ++ visitorName ++ " method matching the concrete variant."] := by
    decide +kernel
  rw [hdoc]
  simp [nodeDecl, DeclShape.texts, typeHead, typeParamText, TypeBody.texts, TypeBody.keyword,
    MethodShape.text, signatureText, NamedField.listText, NamedField.text, TypeShape.text,
    NamedType.text, nodeInterface, ← String.toList_inj]

/-- The interface of all visitors as texts. -/
theorem texts_visitorInterface (r : String) (vs : List VariantShape) :
    visitorRemarks.map commentText ++ (visitorDecl r vs).texts =
      visitorInterface r (vs.map VariantShape.source) := by
  have hdoc : visitorRemarks.map commentText =
      ["// " ++ visitorName ++ " has one method per expression variant."] := by
    decide +kernel
  have hmethod : ∀ v : VariantShape, "\t" ++ (v.visitorShape r).text = v.source.visitorLine r := by
    intro v
    simp [VariantShape.visitorShape, MethodShape.text, signatureText, NamedField.listText,
      NamedField.text, TypeShape.text, NamedType.text, VariantSource.visitorLine,
      VariantSource.visitMethod, VariantShape.visitMethod, VariantSource.applied,
      VariantShape.source, ← String.toList_inj]
  have hfirst : typeHead visitorName r "interface" =
      "type " ++ visitorName ++ "[" ++ r ++ " any] interface \x7b" := by
    rw [← String.toList_inj]
    simp [typeHead, typeParamText]
  rw [hdoc, visitorDecl, DeclShape.texts, TypeBody.keyword, hfirst, TypeBody.texts,
    visitorInterface]
  simp [hmethod, Function.comp_def]

/-- Blocks with an empty line between each two are the first one, and each other one after an empty
line. -/
theorem intercalate_cons_blocks (block : List String) (blocks : List (List String)) :
    List.intercalate [""] (block :: blocks) = block ++ blocks.flatMap ("" :: ·) := by
  induction blocks generalizing block with
  | nil => simp
  | cons next blocks ih => rw [List.intercalate_cons_cons, ih, List.flatMap_cons]; simp

/-- The lines of a file as texts are those of its blocks. -/
theorem SourceFile.fileTexts_documented (f : SourceFile) (paths : List String) :
    fileTexts f.package paths f.documented = List.intercalate [""] (f.blocks true paths) := by
  have hvariants : f.variants = f.shapes.map VariantShape.source := by
    simp [SourceFile.variants, SourceFile.shapes, source_of]
  have hbare : (f.variantDecls.map ([], ·)).flatMap documentedTexts =
      (f.variants.flatMap (VariantSource.blocks true (resultParam f.schema))).flatMap
        ("" :: ·) := by
    have hmap : f.variants.flatMap (VariantSource.blocks true (resultParam f.schema)) =
        f.variantDecls.map DeclShape.texts := by
      rw [hvariants, List.flatMap_map, variantDecls, List.map_flatMap]
      exact List.flatMap_congr fun v _ => (v.map_texts_decls _).symm
    rw [hmap, List.flatMap_map, List.flatMap_map]
    rfl
  have himports : (importBlock paths).flatMap ("" :: ·) =
      if paths.isEmpty then [] else "" :: importTexts paths := by
    cases paths with
    | nil => rfl
    | cons p paths => simp [importBlock, importTexts]
  rw [blocks, packageBlock, List.cons_append, List.cons_append, intercalate_cons_blocks,
    List.append_assoc, List.flatMap_append, himports, List.flatMap_append, fileTexts, documented,
    List.flatMap_cons, List.flatMap_cons, hbare, documentedTexts, documentedTexts,
    texts_nodeInterface, texts_visitorInterface, ← hvariants]
  simp

/-- The text of blocks is that of their lines. -/
theorem toList_textOfBlocks (blocks : List (List String)) :
    (textOfBlocks blocks).toList = lineChars (List.intercalate [""] blocks) := by
  rw [textOfBlocks, String.toList_join, List.flatMap_map, lineChars]
  simp

/-! ## Words -/

/-- An identifier is a word. -/
theorem isPlainWord_of_isIdentifier {n : String} (h : isIdentifier n = true) : IsPlainWord n := by
  have hmarks : ∀ c, (separates c || c == ' ') = true → continuesIdentifier c = false := by
    intro c hc
    have hcases : c = '\t' ∨ c = '\x0b' ∨ c = '\n' ∨ c = '\x0c' ∨ c = ' ' := by
      simpa [separates, Page.isBreak, or_assoc] using hc
    rcases hcases with rfl | rfl | rfl | rfl | rfl <;> decide
  have hnone : ∀ c ∈ n.toList, (separates c || c == ' ') = false := by
    intro c hc
    have hcontinues := continuesIdentifier_of_mem h hc
    rw [← Bool.not_eq_true]
    intro hmark
    rw [hmarks c hmark] at hcontinues
    exact absurd hcontinues Bool.false_ne_true
  refine ⟨?_, fun c hc => (Bool.or_eq_false_iff.1 (hnone c hc)).1, fun hc => ?_⟩
  · rintro rfl
    exact absurd h (by decide)
  · exact absurd (hnone ' ' hc) (by decide)

/-- The names in a well-formed type are words. -/
theorem IsSoundType.isPlainWord {s : TypeShape} (h : IsSoundType s) : ∀ w ∈ s.base.words, IsPlainWord w := by
  have hname : ∀ n, .name n ∈ typePieces s → IsPlainWord n := fun n hn => isPlainWord_of_isIdentifier (h _ hn)
  obtain ⟨starred, base⟩ := s
  intro w hw
  refine hname w (List.mem_append_right _ ?_)
  cases base <;> simpa [NamedType.words, basePieces] using hw

namespace VariantShape

variable {r : String} {v : VariantShape}

/-- The names in the declarations of a variant are words. -/
theorem IsSound.isPlainWord_decls (hv : v.IsSound) (hr : isIdentifier r = true) :
    ∀ s ∈ v.decls r, ∀ w ∈ s.words, IsPlainWord w := by
  have hfixed : ∀ n ∈ ["any", "e", "visitor", "_", nodeName, visitorName, acceptName], IsPlainWord n := by
    decide
  simp only [List.forall_mem_cons] at hfixed
  have hname := isPlainWord_of_isIdentifier hv.name
  have hnew := isPlainWord_of_isIdentifier (isIdentifier_constructor hv.name)
  have hvisit := isPlainWord_of_isIdentifier (isIdentifier_visitMethod hv.name)
  have hresult := isPlainWord_of_isIdentifier hr
  have hident : ∀ f ∈ v.fields, IsPlainWord f.ident := fun f hf =>
    isPlainWord_of_isIdentifier (hv.fields f hf).ident
  have hparam : ∀ f ∈ v.fields, IsPlainWord f.param := fun f hf =>
    isPlainWord_of_isIdentifier (hv.fields f hf).param
  have htype : ∀ f ∈ v.fields, ∀ w ∈ f.type.base.words, IsPlainWord w := fun f hf =>
    (hv.fields f hf).type.isPlainWord
  simp only [decls, List.forall_mem_cons, List.not_mem_nil, false_implies, implies_true, and_true]
  refine ⟨?_, ?_, ?_, ?_⟩
  · simp only [structDecl, DeclShape.words, TypeBody.words, List.forall_mem_cons,
      List.forall_mem_flatMap, List.forall_mem_map, NamedField.words]
    exact ⟨hname, hresult, fun f hf => ⟨hident f hf, htype f hf⟩⟩
  · simp [nodeDecl, DeclShape.words, ValueShape.words, NamedType.words, hfixed, hname]
  · simp [acceptDecl, DeclShape.words, FunctionHead.words, NamedField.words, ValueShape.words,
      NamedType.words, hfixed, hname, hvisit, hresult]
  · simp only [constructorDecl, DeclShape.words, FunctionHead.words, ValueShape.words,
      NamedType.words, List.forall_mem_append, List.forall_mem_cons, List.forall_mem_flatMap,
      List.forall_mem_map, NamedField.words, List.not_mem_nil, false_implies, implies_true, and_true]
    exact ⟨⟨⟨⟨hnew, hresult⟩, fun f hf => ⟨hparam f hf, htype f hf⟩⟩, hname, hresult⟩, hname,
      hresult, fun f hf => ⟨hident f hf, hparam f hf⟩⟩

/-- The names in the interfaces are words. -/
theorem isPlainWord_interfaceDecls {vs : List VariantShape} (hvs : ∀ v ∈ vs, v.IsSound)
    (hr : isIdentifier r = true) :
    (∀ w ∈ (Emission.nodeDecl r).words, IsPlainWord w) ∧ ∀ w ∈ (visitorDecl r vs).words, IsPlainWord w := by
  have hfixed : ∀ n ∈ ["visitor", "expr", nodeName, visitorName, acceptName], IsPlainWord n := by
    decide
  simp only [List.forall_mem_cons] at hfixed
  have hresult := isPlainWord_of_isIdentifier hr
  constructor
  · simp [Emission.nodeDecl, DeclShape.words, TypeBody.words, MethodShape.words, NamedField.words,
      NamedType.words, hfixed, hresult]
  · simp only [visitorDecl, DeclShape.words, TypeBody.words, List.forall_mem_cons,
      List.forall_mem_flatMap, List.forall_mem_map]
    refine ⟨hfixed.2.2.2.1, hresult, fun v hv => ?_⟩
    have hname := isPlainWord_of_isIdentifier (hvs v hv).name
    have hvisit := isPlainWord_of_isIdentifier (isIdentifier_visitMethod (hvs v hv).name)
    simp [visitorShape, MethodShape.words, NamedField.words, NamedType.words, hfixed, hname, hvisit,
      hresult]

end VariantShape

/-- The names in the declarations of a plain file are words. -/
theorem SourceFile.isPlainWord_documented {f : SourceFile} (h : f.isPlain = true) :
    ∀ s ∈ f.documented, ∀ w ∈ s.2.words, IsPlainWord w := by
  have hr := isIdentifier_resultParam f.schema
  have hshapes := isSound_shapes h
  obtain ⟨hnode, hvisitor⟩ := VariantShape.isPlainWord_interfaceDecls hshapes hr
  simp only [documented, List.forall_mem_cons, List.forall_mem_map]
  refine ⟨hnode, hvisitor, fun s hs => ?_⟩
  obtain ⟨v, hv, hs⟩ := List.mem_flatMap.1 hs
  exact (hshapes v hv).isPlainWord_decls hr s hs

end NodeFamily.Emission
