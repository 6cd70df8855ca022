import NodeFamily.Proofs.Emission.Soundness
import NodeFamily.Proofs.Layout.DeclReading
import NodeFamily.Proofs.Layout.FileWriting
import NodeFamily.Proofs.Layout.SourceParts

/-!
# The draft of a plain file is source text

A draft is made of three parts, which begin with the opening comment and with the documentation of
the two interfaces (`flatMap_lines_parts`). The lines of a block, cut into lexical elements, are
those of a declaration that the grammar knows. So the grammar reads the draft of every plain file
(`SourceFile.exists_isRead`).
-/

namespace NodeFamily.Emission

open Layout

/-! ## The declarations of a file -/

namespace VariantShape

/-- The struct of a variant as a declaration. -/
def structDecl (r : String) (v : VariantShape) : DeclShape :=
  .type v.name r (.struct (v.fields.map fun f => (f.ident, f.type)))

/-- The check that a variant is a node as a declaration. -/
def nodeDecl (v : VariantShape) : DeclShape :=
  .var "_" ⟨false, .applied nodeName "any"⟩ (.null v.name)

/-- The accepting method of a variant as a declaration. -/
def acceptDecl (r : String) (v : VariantShape) : DeclShape :=
  .function (.method ("e", ⟨true, .applied v.name r⟩) acceptName)
    [("visitor", ⟨false, .applied visitorName r⟩)] ⟨false, .name r⟩ (.visit v.visitMethod)

/-- The constructor of a variant as a declaration. -/
def constructorDecl (r : String) (v : VariantShape) : DeclShape :=
  .function (.generic ("New" ++ v.name) r) (v.fields.map fun f => (f.param, f.type))
    ⟨true, .applied v.name r⟩ (.literal v.name r (v.fields.map fun f => (f.ident, f.param)))

/-- The declarations of a variant. -/
def decls (r : String) (v : VariantShape) : List DeclShape :=
  [v.structDecl r, v.nodeDecl, v.acceptDecl r, v.constructorDecl r]

/-- The method of the visitor interface for a variant. -/
def visitorShape (r : String) (v : VariantShape) : MethodShape :=
  ⟨v.visitMethod, ("expr", ⟨true, .applied v.name r⟩), ⟨false, .name r⟩⟩

end VariantShape

/-- The interface of all nodes as a declaration. -/
def nodeDecl (r : String) : DeclShape :=
  .type nodeName r (.interface
    [⟨acceptName, ("visitor", ⟨false, .applied visitorName r⟩), ⟨false, .name r⟩⟩])

/-- The interface of all visitors as a declaration. -/
def visitorDecl (r : String) (vs : List VariantShape) : DeclShape :=
  .type visitorName r (.interface (vs.map (VariantShape.visitorShape r)))

/-- The declarations of the variants of a file. -/
def SourceFile.variantDecls (f : SourceFile) : List DeclShape :=
  f.shapes.flatMap (VariantShape.decls (resultParam f.schema))

/-! ## From lines to declarations -/

/-- The pieces of a type have its elements, and can end a statement. -/
theorem lexemesFrom_typePieces (ready : Bool) (t : TypeShape) (qs : List Piece) :
    Piece.lexemesFrom ready (typePieces t ++ qs) = t.lexemes ++ Piece.lexemesFrom true qs := by
  obtain ⟨starred, base⟩ := t
  cases starred <;> cases base <;> rfl

/-- Items with commas between them have the elements of the items with commas between them. -/
theorem lexemesFrom_commaSeparated {ι κ : Type} {item : ι → List Piece} {key : ι → κ}
    {f : κ → List Lexeme}
    (h : ∀ x ready qs, Piece.lexemesFrom ready (item x ++ qs) =
      f (key x) ++ Piece.lexemesFrom true qs)
    (xs : List ι) (ready : Bool) (closing : String) (qs : List Piece) :
    Piece.lexemesFrom ready (VariantShape.commaSeparated (xs.map item) ++ .sign closing :: qs) =
      Reads.separated f (xs.map key) ++ .sign closing ::
        Piece.lexemesFrom (Lexeme.sign closing).endsStatement qs := by
  induction xs generalizing ready with
  | nil => rfl
  | cons x xs ih =>
    cases xs with
    | nil =>
      simp only [VariantShape.commaSeparated, Reads.separated, List.map_cons, List.map_nil,
        List.intercalate_singleton]
      exact h x ready _
    | cons y xs =>
      -- After a comma a line break would not count, and the space after it adds no element.
      have hrest := ih false
      simp only [VariantShape.commaSeparated, Reads.separated, List.map_cons] at hrest ⊢
      rw [List.intercalate_cons_cons, List.intercalate_cons_cons, List.append_assoc,
        List.append_assoc, h, List.append_assoc, List.append_assoc, ← hrest]
      rfl

namespace VariantShape

/-- The struct of a variant has the lines of its declaration. -/
theorem lineLexemes_structBlock (r : String) (v : VariantShape) :
    (v.structBlock r).map Piece.lineLexemes = (v.structDecl r).lines := by
  have hfield : ∀ f : FieldShape, Piece.lineLexemes ([.blank '\t', .name f.ident, .blank ' '] ++
      typePieces f.type) = NamedField.lexemes (f.ident, f.type) ++ [.semicolon false] := fun f =>
    congrArg (Lexeme.name f.ident :: ·) (lexemesFrom_typePieces true f.type [.lineBreak])
  have hfields : (v.fields.map fun f =>
      [Piece.blank '\t', .name f.ident, .blank ' '] ++ typePieces f.type).map Piece.lineLexemes =
        (TypeBody.struct (v.fields.map fun f => (f.ident, f.type))).rows := by
    rw [TypeBody.rows, List.map_map, List.map_map]
    exact List.map_congr_left fun f _ => hfield f
  rw [structBlock, List.map_append, List.map_append, hfields]
  rfl

/-- The constructor of a variant has the lines of its declaration. -/
theorem lineLexemes_constructorBlock (r : String) (v : VariantShape) :
    (v.constructorBlock r).map Piece.lineLexemes = (v.constructorDecl r).lines := by
  have hparams : ∀ ready qs, Piece.lexemesFrom ready (v.parameters ++ .sign ")" :: qs) =
      NamedField.listLexemes (v.fields.map fun f => (f.param, f.type)) ++ .sign ")" ::
        Piece.lexemesFrom true qs := by
    intro ready qs
    refine lexemesFrom_commaSeparated (fun f ready qs => ?_) v.fields ready _ qs
    exact congrArg (Lexeme.name f.param :: ·) (lexemesFrom_typePieces true f.type qs)
  have hinits : ∀ ready qs, Piece.lexemesFrom ready (v.initialisers ++ .sign "\x7d" :: qs) =
      Reads.separated ValueShape.pairLexemes (v.fields.map fun f => (f.ident, f.param)) ++
        .sign "\x7d" :: Piece.lexemesFrom true qs := by
    intro ready qs
    exact lexemesFrom_commaSeparated (fun f ready qs => rfl) v.fields ready _ qs
  have hfirst : Piece.lineLexemes (v.constructorHead r) = .sign "func" ::
      .name ("New" ++ v.name) :: .sign "[" :: .name r :: .name "any" :: .sign "]" :: .sign "(" ::
      (NamedField.listLexemes (v.fields.map fun f => (f.param, f.type)) ++ .sign ")" ::
        ((⟨true, .applied v.name r⟩ : TypeShape).lexemes ++ [.sign "\x7b"])) := by
    simp only [Piece.lineLexemes, constructorHead, List.append_assoc]
    exact congrArg ([.sign "func", .name ("New" ++ v.name), .sign "[", .name r, .name "any",
      .sign "]", .sign "("] ++ ·) (hparams false _)
  have hsecond : Piece.lineLexemes (v.constructorReturn r) = .sign "return" ::
      ((ValueShape.literal v.name r (v.fields.map fun f => (f.ident, f.param))).lexemes ++
        [.semicolon false]) := by
    simp only [Piece.lineLexemes, constructorReturn, List.append_assoc, ValueShape.lexemes,
      List.cons_append, List.nil_append]
    exact congrArg ([.sign "return", .sign "&", .name v.name, .sign "[", .name r, .sign "]",
      .sign "\x7b"] ++ ·) (hinits false _)
  simp only [constructorBlock, List.map_cons, List.map_nil, hfirst, hsecond]
  rfl

/-- The blocks of a variant have the lines of its declarations. -/
theorem lineLexemes_blocks (r : String) (v : VariantShape) :
    (v.blocks r).map (List.map Piece.lineLexemes) = (v.decls r).map DeclShape.lines := by
  simp only [blocks, decls, List.map_cons, List.map_nil, lineLexemes_structBlock,
    lineLexemes_constructorBlock]
  rfl

end VariantShape

/-- The imports have the lines of an import declaration. -/
theorem lineLexemes_importLines (paths : List String) :
    ((importLines paths).flatten).map Piece.lineLexemes = importLexemes (paths.map Text.quote) := by
  cases paths with
  | nil => rfl
  | cons p paths =>
    simp only [importLines, importLexemes, List.flatten_cons, List.flatten_nil, List.append_nil,
      List.map_append, List.map_map, List.map_cons]
    rfl

/-- The interface of all visitors has the lines of its declaration after its documentation. -/
theorem lineLexemes_visitorLines (r : String) (vs : List VariantShape) :
    ((visitorLines r vs).drop 1).map Piece.lineLexemes = (visitorDecl r vs).lines := by
  simp only [visitorLines, List.cons_append, List.drop_succ_cons, List.drop_zero, List.map_cons,
    List.map_append, List.map_map, List.nil_append, visitorDecl, DeclShape.lines, TypeBody.rows]
  rfl

/-! ## The parts of a draft -/

/-- The opening comment after its marks. -/
def SourceFile.remark (f : SourceFile) : String :=
  "Code generated by " ++ f.generatorName.shown ++ ". DO NOT EDIT."

/-- The documentation of the interface of all nodes after its marks. -/
def nodeRemarks : List String :=
  [nodeName ++ " is implemented by every expression variant. Accept dispatches to the",
    visitorName ++ " method matching the concrete variant."]

/-- The documentation of the interface of all visitors after its marks. -/
def visitorRemarks : List String := [visitorName ++ " has one method per expression variant."]

/-- The opening comment with the package clause and the imports. -/
def SourceFile.frontPart (f : SourceFile) : SourcePart :=
  ⟨[f.remark], [] :: (packageLines f.package ++ [] ::
    (importLines (draftPaths f.imports)).flatMap (· ++ [[]]))⟩

/-- The interface of all nodes. -/
def nodePart (r : String) : SourcePart := ⟨nodeRemarks, (nodeLines r).drop 2 ++ [[]]⟩

/-- The interface of all visitors with the declarations of the variants. -/
def SourceFile.visitorPart (f : SourceFile) : SourcePart :=
  ⟨visitorRemarks, (visitorLines (resultParam f.schema) f.shapes).drop 1 ++ [] ::
    (f.shapes.flatMap (VariantShape.blocks (resultParam f.schema))).flatMap (· ++ [[]])⟩

/-- The parts of a draft. -/
def SourceFile.parts (f : SourceFile) : List SourcePart :=
  [f.frontPart, nodePart (resultParam f.schema), f.visitorPart]

/-- Blocks with an empty line between each two and one at the end have an empty line after each. -/
theorem intercalate_append_nil {blocks : List (List (List Piece))} (h : blocks ≠ []) :
    List.intercalate [[]] blocks ++ [[]] = blocks.flatMap (· ++ [[]]) := by
  induction blocks with
  | nil => exact absurd rfl h
  | cons block blocks ih =>
    cases blocks with
    | nil => simp
    | cons next blocks =>
      rw [List.intercalate_cons_cons, List.append_assoc, ih (List.cons_ne_nil next blocks),
        List.flatMap_cons (x := block)]

/-- The lines of the interface of all nodes. -/
theorem lines_nodePart (r : String) : (nodePart r).lines = nodeLines r ++ [[]] := by
  simp [nodePart, SourcePart.lines, nodeLines, nodeRemarks]

/-- The lines of the interface of all visitors and of the variants. -/
theorem SourceFile.lines_visitorPart (f : SourceFile) :
    f.visitorPart.lines = visitorLines (resultParam f.schema) f.shapes ++ [] ::
      (f.shapes.flatMap (VariantShape.blocks (resultParam f.schema))).flatMap (· ++ [[]]) := by
  simp [visitorPart, SourcePart.lines, visitorLines, visitorRemarks]

/-- The parts of a draft are its lines. -/
theorem SourceFile.flatMap_lines_parts (f : SourceFile) :
    f.parts.flatMap SourcePart.lines = f.draftLines := by
  have hfront : f.frontPart.lines = [.comment f.remark] :: [] :: (packageLines f.package ++ [] ::
      (importLines (draftPaths f.imports)).flatMap (· ++ [[]])) := by
    simp [SourcePart.lines, frontPart]
  have hblocks : List.intercalate [[]] f.draftBlocks ++ [[]] =
      f.draftBlocks.flatMap (· ++ [[]]) := intercalate_append_nil (by simp [draftBlocks])
  have hparts : f.parts.flatMap SourcePart.lines = f.frontPart.lines ++
      (nodePart (resultParam f.schema)).lines ++ f.visitorPart.lines := by
    simp [parts]
  have hlines : f.draftLines = [.comment f.remark] :: [] ::
      (List.intercalate [[]] f.draftBlocks ++ [[]]) := by
    unfold draftLines remark
    rfl
  rw [hparts, hfront, lines_nodePart, f.lines_visitorPart, hlines, hblocks]
  simp [draftBlocks]

/-! ## Lines of code -/

/-- Pieces of code, none of which is the keyword of a type declaration. -/
def AreInner (ps : List Piece) : Prop := ∀ p ∈ ps, p.isCode = true ∧ p ≠ .keyword "type"

/-- The lines of a block are code, and none has the keyword of a type declaration but at its
front. -/
def AreCode (lines : List (List Piece)) : Prop :=
  ∀ line ∈ lines, (∀ p ∈ line, p.isCode = true) ∧ ∀ p ∈ line.tail, p ≠ .keyword "type"

/-- Pieces of code without that keyword are a line of code. -/
theorem AreInner.areCode {ps : List Piece} (h : AreInner ps) :
    (∀ p ∈ ps, p.isCode = true) ∧ ∀ p ∈ ps.tail, p ≠ .keyword "type" :=
  ⟨fun p hp => (h p hp).1, fun p hp => (h p (List.mem_of_mem_tail hp)).2⟩

/-- The pieces of a type. -/
theorem areInner_typePieces (t : TypeShape) : AreInner (typePieces t) := by
  obtain ⟨starred, base⟩ := t
  cases starred <;> cases base <;> simp [AreInner, typePieces, basePieces, Piece.isCode]

namespace VariantShape

/-- The struct is code. -/
theorem areCode_structBlock (r : String) (v : VariantShape) : AreCode (v.structBlock r) := by
  have hfields : AreCode (v.fields.map fun f =>
      [.blank '\t', .name f.ident, .blank ' '] ++ typePieces f.type) := by
    refine List.forall_mem_map.2 fun f _ => AreInner.areCode (List.forall_mem_append.2
      ⟨?_, areInner_typePieces f.type⟩)
    simp [Piece.isCode]
  refine List.forall_mem_append.2 ⟨List.forall_mem_append.2 ⟨?_, hfields⟩, ?_⟩
  all_goals simp [Piece.isCode]

/-- The check and the accepting method are code. -/
theorem areCode_acceptBlock (r : String) (v : VariantShape) :
    AreCode v.nodeBlock ∧ AreCode (v.acceptBlock r) := by
  constructor <;> simp [AreCode, nodeBlock, acceptBlock, applied, Piece.isCode]

/-- The constructor is code. -/
theorem areCode_constructorBlock (r : String) (v : VariantShape) :
    AreCode (v.constructorBlock r) := by
  have hparams : AreInner v.parameters := by
    refine forall_mem_commaSeparated.2 ⟨List.forall_mem_map.2 fun f _ => List.forall_mem_append.2
      ⟨?_, areInner_typePieces f.type⟩, ?_⟩
    all_goals simp [Piece.isCode]
  have hinits : AreInner v.initialisers := by
    refine forall_mem_commaSeparated.2 ⟨List.forall_mem_map.2 fun f _ => ?_, ?_⟩
    all_goals simp [Piece.isCode]
  refine List.forall_mem_cons.2 ⟨AreInner.areCode ?_, List.forall_mem_cons.2
    ⟨AreInner.areCode ?_, by simp [Piece.isCode]⟩⟩
  · simp only [AreInner, constructorHead, List.forall_mem_append]
    refine ⟨?_, hparams, ?_, ?_, ?_⟩
    all_goals simp [applied, Piece.isCode]
  · simp only [AreInner, constructorReturn, List.forall_mem_append]
    refine ⟨?_, ?_, ?_, hinits, ?_⟩
    all_goals simp [applied, Piece.isCode]

/-- The blocks of a variant are code. -/
theorem areCode_blocks (r : String) (v : VariantShape) : ∀ block ∈ v.blocks r, AreCode block := by
  simp only [blocks, List.forall_mem_cons, List.not_mem_nil, false_implies, implies_true, and_true]
  exact ⟨v.areCode_structBlock r, (v.areCode_acceptBlock r).1, (v.areCode_acceptBlock r).2,
    v.areCode_constructorBlock r⟩

end VariantShape

/-- Blocks of code with an empty line after each are code. -/
theorem areCode_flatMap {blocks : List (List (List Piece))} (h : ∀ block ∈ blocks, AreCode block) :
    AreCode (blocks.flatMap (· ++ [[]])) :=
  List.forall_mem_flatMap.2 fun block hblock =>
    List.forall_mem_append.2 ⟨h block hblock, by simp⟩

/-- The imports are code. -/
theorem areCode_importLines (paths : List String) :
    ∀ block ∈ importLines paths, AreCode block := by
  cases paths with
  | nil => simp [importLines]
  | cons p paths =>
    refine List.forall_mem_singleton.2 (List.forall_mem_append.2
      ⟨List.forall_mem_append.2 ⟨by simp [Piece.isCode], List.forall_mem_map.2 fun p _ => ?_⟩,
        by simp [Piece.isCode]⟩)
    simp [Piece.isCode]

/-- The interface of all visitors is code after its documentation. -/
theorem areCode_visitorLines (r : String) (vs : List VariantShape) :
    AreCode ((visitorLines r vs).drop 1) := by
  have hmethods : AreCode (vs.map (VariantShape.visitorLine r)) := by
    refine List.forall_mem_map.2 fun v _ => ?_
    simp [VariantShape.visitorLine, VariantShape.applied, Piece.isCode]
  simp only [visitorLines, List.cons_append, List.drop_succ_cons, List.drop_zero, List.nil_append]
  exact List.forall_mem_cons.2 ⟨by simp [Piece.isCode],
    List.forall_mem_append.2 ⟨hmethods, by simp [Piece.isCode]⟩⟩

/-- The parts of a draft begin with comments, and code follows them. -/
theorem SourceFile.areCode_parts (f : SourceFile) :
    ∀ p ∈ f.parts, p.comments ≠ [] ∧ AreCode p.code ∧
      ∃ line ∈ p.code, Piece.lineLexemes line ≠ [] := by
  have hvariants : AreCode ((f.shapes.flatMap
      (VariantShape.blocks (resultParam f.schema))).flatMap (· ++ [[]])) :=
    areCode_flatMap (List.forall_mem_flatMap.2 fun v _ => v.areCode_blocks _)
  simp only [parts, List.forall_mem_cons, List.not_mem_nil, false_implies, implies_true, and_true]
  refine ⟨⟨by simp [frontPart], ?_, ?_⟩, ⟨by simp [nodePart, nodeRemarks], ?_, ?_⟩,
    ⟨by simp [visitorPart, visitorRemarks], ?_, ?_⟩⟩
  · exact List.forall_mem_cons.2 ⟨by simp, List.forall_mem_append.2 ⟨by simp [packageLines,
      Piece.isCode], List.forall_mem_cons.2 ⟨by simp, areCode_flatMap (areCode_importLines _)⟩⟩⟩
  · exact ⟨_, List.mem_cons_of_mem _ (List.mem_append_left _ List.mem_cons_self),
      List.cons_ne_nil _ _⟩
  · simp [AreCode, nodePart, nodeLines, Piece.isCode]
  · exact ⟨_, List.mem_append_left _ List.mem_cons_self, List.cons_ne_nil _ _⟩
  · exact List.forall_mem_append.2 ⟨areCode_visitorLines _ _, List.forall_mem_cons.2
      ⟨by simp, hvariants⟩⟩
  · exact ⟨_, List.mem_append_left _ List.mem_cons_self, List.cons_ne_nil _ _⟩

/-- The parts of a draft of a plain file are well formed. -/
theorem SourceFile.isSound_parts {f : SourceFile} (h : f.isPlain = true) :
    ∀ p ∈ f.parts, p.IsSound := by
  intro p hp
  obtain ⟨hcomments, hcode, hlexemes⟩ := f.areCode_parts p hp
  have hlines : ∀ line ∈ p.lines, ∀ q ∈ line, q.IsSound := by
    intro line hline
    refine f.isSound_draftLines h line ?_
    rw [← f.flatMap_lines_parts]
    exact List.mem_flatMap.2 ⟨p, hp, hline⟩
  rw [SourcePart.lines, List.forall_mem_append] at hlines
  refine ⟨hcomments, fun s hs => ?_, fun line hline => ?_, hlexemes⟩
  · exact hlines.1 _ (List.mem_map_of_mem hs) _ List.mem_cons_self
  · exact ⟨hlines.2 line hline, (hcode line hline).1, (hcode line hline).2⟩

/-! ## The elements of a draft -/

/-- The blocks of the variants have the lines of their declarations. -/
theorem SourceFile.lineLexemes_variants (f : SourceFile) :
    ((f.shapes.flatMap (VariantShape.blocks (resultParam f.schema))).flatMap (· ++ [[]])).map
      Piece.lineLexemes = f.variantDecls.flatMap (·.lines ++ [[]]) := by
  have hblocks : (f.shapes.flatMap (VariantShape.blocks (resultParam f.schema))).map
      (List.map Piece.lineLexemes) = f.variantDecls.map DeclShape.lines := by
    simp only [variantDecls, List.map_flatMap, VariantShape.lineLexemes_blocks]
  have hempty : [[]].map Piece.lineLexemes = [[]] := rfl
  have hmap : ((f.shapes.flatMap (VariantShape.blocks (resultParam f.schema))).flatMap
      (· ++ [[]])).map Piece.lineLexemes =
        ((f.shapes.flatMap (VariantShape.blocks (resultParam f.schema))).map
          (List.map Piece.lineLexemes)).flatMap (· ++ [[]]) := by
    simp only [List.map_flatMap, List.map_append, hempty, List.flatMap_map, List.flatMap_assoc]
  rw [hmap, hblocks, List.flatMap_map]

/-- Declarations with the lines on which they begin, when an empty line follows each. -/
def placed : (line : Nat) → List DeclShape → List (DeclShape × Nat)
  | _, [] => []
  | line, s :: ss => (s, line) :: placed (line + s.lines.length + 1) ss

/-- The elements of declarations with an empty line after each. -/
theorem ofLines_flatMap_lines (line : Nat) (ss : List DeclShape) :
    Item.ofLines line (ss.flatMap (·.lines ++ [[]])) = declItems (placed line ss) := by
  induction ss generalizing line with
  | nil => rfl
  | cons s ss ih =>
    rw [List.flatMap_cons, List.append_assoc, Item.ofLines_append, List.singleton_append,
      Item.ofLines_cons, ih]
    rfl

/-- The line after the imports, or else the package clause, and an empty line. -/
def SourceFile.start (f : SourceFile) : Nat := importsEnd (draftPaths f.imports) + 2

/-- The declarations of a draft with the lines on which they begin. -/
def SourceFile.placedDecls (f : SourceFile) : List (DeclShape × Nat) :=
  (nodeDecl (resultParam f.schema), f.start + 2) ::
    placed (f.start + 7) (visitorDecl (resultParam f.schema) f.shapes :: f.variantDecls)

/-- The elements of the imports with an empty line after them, if there are any, and the number of
their lines. -/
theorem ofLines_importLines (paths : List String) (line : Nat) :
    Item.ofLines line (((importLines paths).flatMap (· ++ [[]])).map Piece.lineLexemes) =
        Item.ofLines line (importLexemes (paths.map Text.quote)) ∧
      5 + ((importLines paths).flatMap (· ++ [[]])).length = importsEnd paths + 2 := by
  cases paths with
  | nil => exact ⟨rfl, rfl⟩
  | cons p paths =>
    have hlines := lineLexemes_importLines (p :: paths)
    simp only [importLines, List.flatten_cons, List.flatten_nil, List.append_nil] at hlines
    constructor
    · simp only [importLines, List.flatMap_cons, List.flatMap_nil, List.append_nil]
      rw [List.map_append, hlines, Item.ofLines_append]
      exact List.append_nil _
    · simp [importLines, importsEnd]
      omega

/-- The part after the front begins on the line after the imports and an empty one. -/
theorem SourceFile.length_lines_frontPart (f : SourceFile) :
    1 + f.frontPart.lines.length = f.start := by
  rw [start, ← (ofLines_importLines (draftPaths f.imports) 5).2]
  simp [SourcePart.lines, frontPart, packageLines]
  omega

/-- The elements of the parts of a draft. -/
theorem SourceFile.partItems_parts (f : SourceFile) :
    partItems 1 f.parts = Item.on 3 [.sign "package", .name f.package, .semicolon false] ++
      (Item.ofLines 5 (importLexemes ((draftPaths f.imports).map Text.quote)) ++
        declItems f.placedDecls) := by
  have himports := (ofLines_importLines (draftPaths f.imports) 5).1
  have hfront : f.frontPart.items 1 =
      Item.on 3 [.sign "package", .name f.package, .semicolon false] ++
        Item.ofLines 5 (importLexemes ((draftPaths f.imports).map Text.quote)) := by
    rw [← himports]
    rfl
  have hnode : (nodePart (resultParam f.schema)).items f.start =
      declItems [(nodeDecl (resultParam f.schema), f.start + 2)] := by
    have hcode : (nodePart (resultParam f.schema)).code.map Piece.lineLexemes =
        (nodeDecl (resultParam f.schema)).lines ++ [[]] := rfl
    rw [SourcePart.items, hcode, Item.ofLines_append]
    rfl
  have hvisitor : f.visitorPart.items (f.start + 6) = declItems (placed (f.start + 7)
      (visitorDecl (resultParam f.schema) f.shapes :: f.variantDecls)) := by
    have hcode : f.visitorPart.code.map Piece.lineLexemes =
        (visitorDecl (resultParam f.schema) f.shapes :: f.variantDecls).flatMap
          (·.lines ++ [[]]) := by
      rw [visitorPart, List.map_append, lineLexemes_visitorLines, List.map_cons,
        f.lineLexemes_variants, List.flatMap_cons, List.append_assoc]
      rfl
    rw [SourcePart.items, hcode, ofLines_flatMap_lines]
    rfl
  have hlines : (nodePart (resultParam f.schema)).lines.length = 6 := rfl
  rw [parts, partItems, partItems, partItems, partItems, f.length_lines_frontPart, hlines, hfront,
    hnode, hvisitor, List.append_nil, List.append_assoc]
  rfl

/-! ## The layout of a draft -/

/-- A draft as it is read: the tokens, the comments and the tree of the text. -/
structure SourceFile.IsRead (f : SourceFile) (source : Source) (tree : SourceTree) : Prop where
  /-- The text is cut into tokens and comments. -/
  cut : Source.ofChars? f.draftText.toList = some source
  /-- The places are those of the text. -/
  table : source.table = .ofText f.draftText.toList
  /-- A package clause comes first, so that the text is not taken for bare declarations. -/
  package : source.tokens.head?.any (·.lexeme == .sign "package") = true
  /-- The tokens have a tree. -/
  parsed : SourceTree.ofTokens? source.tokens = some tree
  /-- The tree is that of the declarations of the file. -/
  isTree : SourceTree.IsTree source.table 3 f.package 5 ((draftPaths f.imports).map Text.quote)
    f.placedDecls tree
  /-- The comments are those at the front of the parts. -/
  groups : AreGroups source.table 1 f.parts source.comments

/-- The draft of a plain file is read. -/
theorem SourceFile.exists_isRead {f : SourceFile} (h : f.isPlain = true) :
    ∃ source tree, f.IsRead source tree := by
  obtain ⟨source, hsource, htable, htokens, hgroups⟩ := ofChars?_of_parts (f.isSound_parts h)
    (f.flatMap_lines_parts ▸ f.lineFits_draftLines)
  rw [f.flatMap_lines_parts, ← f.toList_draftText] at hsource
  have htext : source.table = .ofText f.draftText.toList := by
    rw [htable, f.flatMap_lines_parts, f.toList_draftText, Piece.tableOf]
  rw [f.partItems_parts] at htokens
  have hsound : Reader.IsSound { tokens := source.tokens } := ⟨Nat.le_refl _, Int.le_refl _⟩
  have hitems := htokens
  rw [List.append_assoc, List.append_assoc] at hitems
  obtain ⟨tree, r, hread, -, -, -, htree⟩ := reads_file (t := source.table)
    (d := 8 * source.tokens.length + 55) f.package ((draftPaths f.imports).map Text.quote)
    f.placedDecls 0 { tokens := source.tokens } hsound hitems
  refine ⟨source, tree, hsource, htext, ?_, ?_, htree, hgroups⟩
  · obtain ⟨token, rest, htoken, -, htokens⟩ := List.forall₂_cons_right_iff.1 htokens
    rw [htokens, List.head?_cons, Option.any_some, htoken.lexeme]
    rfl
  · rw [SourceTree.ofTokens?, hread, Option.map_some]

end NodeFamily.Emission
