import NodeFamily.Emission.SourceFile
import NodeFamily.Proofs.Layout.Scanning
import NodeFamily.Proofs.Layout.TypeReading
import NodeFamily.Proofs.Pieces

/-!
# The lines of an emitted file

The draft of a file once more, but as pieces of source text and not as strings. `FieldShape` and
`VariantShape` hold what the lines of a file are made from, and each function below gives the pieces
of the block that the function of the same name in `VariantSource` writes. `toList_draftText` shows that
both are the same text, whatever the names in it are.
-/

namespace NodeFamily.Emission

open Layout (Piece NamedType TypeShape)

/-! ## Types -/

/-- The text of pieces. -/
def textOf (ps : List Piece) : String := String.ofList (Piece.charsOf ps)

/-- The pieces of a type without a star. -/
def basePieces : NamedType → List Piece
  | .name n => [.name n]
  | .member p n => [.name p, .sign ".", .name n]
  | .applied n arg => [.name n, .sign "[", .name arg, .sign "]"]

/-- The pieces of a type. -/
def typePieces (t : TypeShape) : List Piece :=
  (if t.starred then [.sign "*"] else []) ++ basePieces t.base

/-- The shape of the text of a type. -/
def shapeOf (t : String) : TypeShape :=
  ⟨t.toList.head? == some '*',
    match Text.cutAt '.' (typeBase t).toList with
    | [p, n] => .member (String.ofList p) (String.ofList n)
    | _ => .name (typeBase t)⟩

/-- The shape of a text has that text. -/
theorem textOf_shapeOf (t : String) : textOf (typePieces (shapeOf t)) = t := by
  -- A text with more than one dot is kept as a name, so that no character of it is lost.
  have hbase : Piece.charsOf (basePieces (shapeOf t).base) = (typeBase t).toList := by
    have hjoin := Text.intercalate_cutAt '.' (typeBase t).toList
    unfold shapeOf
    dsimp only
    split
    · next p n hcut =>
      rw [hcut] at hjoin
      simpa [basePieces, Piece.charsOf, Piece.chars, List.intercalate] using hjoin
    · simp [basePieces, Piece.charsOf, Piece.chars]
  have hstar : Piece.charsOf (if (shapeOf t).starred then [.sign "*"] else []) ++
      (typeBase t).toList = t.toList := by
    cases ht : t.toList with
    | nil => simp [shapeOf, typeBase, ht, Piece.charsOf]
    | cons c rest =>
      by_cases hc : c = '*'
      · simp [shapeOf, typeBase, ht, hc, Piece.charsOf, Piece.chars]
      · simp [shapeOf, typeBase, ht, hc, Piece.charsOf]
  rw [← String.toList_inj, textOf, String.toList_ofList, ← hstar, ← hbase]
  simp [typePieces, Piece.charsOf]

/-! ## Variants -/

/-- What a field of a variant is written with. -/
structure FieldShape where
  /-- The identifier of the struct field. -/
  ident : String
  /-- The name of the constructor's parameter. -/
  param : String
  /-- The type in the struct and in the parameter list. -/
  type : TypeShape

/-- What a variant is written with. -/
structure VariantShape where
  /-- The name of the struct. -/
  name : String
  /-- The fields in order. -/
  fields : List FieldShape

/-- A field as the file writes it. -/
def FieldShape.source (f : FieldShape) : FieldSource :=
  ⟨f.ident, f.param, textOf (typePieces f.type)⟩

/-- A variant as the file writes it. -/
def VariantShape.source (v : VariantShape) : VariantSource :=
  ⟨v.name, v.fields.map FieldShape.source⟩

/-- The shape of a field. -/
def FieldShape.of (exported : Bool) (r : String) (f : Field) : FieldShape :=
  ⟨fieldIdent exported f.name, f.name,
    if f.kind = .recursive then ⟨false, .applied nodeName r⟩ else shapeOf f.type⟩

/-- The shape of a variant. -/
def VariantShape.of (exported : Bool) (r : String) (v : Variant) : VariantShape :=
  ⟨v.name, v.fields.map (FieldShape.of exported r)⟩

/-- The shape of a variant is written as the variant is. -/
theorem source_of (exported : Bool) (r : String) (v : Variant) :
    (VariantShape.of exported r v).source = VariantSource.of exported r v := by
  have hfield : ∀ f : Field, (FieldShape.of exported r f).source = FieldSource.of exported r f := by
    intro f
    unfold FieldShape.of FieldShape.source FieldSource.of fieldType
    dsimp only
    split_ifs
    · rw [FieldSource.mk.injEq]
      refine ⟨rfl, rfl, ?_⟩
      rw [← String.toList_inj]
      simp [textOf, typePieces, basePieces, Piece.charsOf, Piece.chars]
    · rw [textOf_shapeOf]
  simp [VariantShape.of, VariantShape.source, VariantSource.of, hfield]

namespace VariantShape

/-- The visitor method of a variant. -/
def visitMethod (v : VariantShape) : String := "Visit" ++ v.name ++ "Expr"

/-- The pieces of a name with its type argument. -/
def applied (n arg : String) : List Piece := [.name n, .sign "[", .name arg, .sign "]"]

/-- The pieces of items with a comma and a space between them. -/
def commaSeparated (items : List (List Piece)) : List Piece :=
  [Piece.sign ",", .blank ' '].intercalate items

/-- The method of the visitor interface for a variant. -/
def visitorLine (r : String) (v : VariantShape) : List Piece :=
  [Piece.blank '\t', .name v.visitMethod, .sign "(", .name "expr", .blank ' ', .sign "*"] ++
    applied v.name r ++ [Piece.sign ")", .blank ' ', .name r]

/-- The struct of a variant. -/
def structBlock (r : String) (v : VariantShape) : List (List Piece) :=
  [[Piece.keyword "type", .blank ' ', .name v.name, .sign "[", .name r, .blank ' ', .name "any",
      .sign "]", .blank ' ', .keyword "struct", .blank ' ', .sign "\x7b"]] ++
    v.fields.map (fun f => [Piece.blank '\t', .name f.ident, .blank ' '] ++ typePieces f.type) ++
    [[Piece.sign "\x7d"]]

/-- The check that a variant is a node. -/
def nodeBlock (v : VariantShape) : List (List Piece) :=
  [[Piece.keyword "var", .blank ' ', .name "_", .blank ' '] ++ applied nodeName "any" ++
    [Piece.blank ' ', .sign "=", .blank ' ', .sign "(", .sign "*"] ++ applied v.name "any" ++
    [Piece.sign ")", .sign "(", .name "nil", .sign ")"]]

/-- The accepting method of a variant. -/
def acceptBlock (r : String) (v : VariantShape) : List (List Piece) :=
  [[Piece.keyword "func", .blank ' ', .sign "(", .name "e", .blank ' ', .sign "*"] ++
      applied v.name r ++ [Piece.sign ")", .blank ' ', .name acceptName, .sign "(", .name "visitor",
      .blank ' '] ++ applied visitorName r ++ [Piece.sign ")", .blank ' ', .name r, .blank ' ',
      .sign "\x7b"],
    [Piece.blank '\t', .keyword "return", .blank ' ', .name "visitor", .sign ".",
      .name v.visitMethod, .sign "(", .name "e", .sign ")"],
    [Piece.sign "\x7d"]]

/-- The parameters of the constructor. -/
def parameters (v : VariantShape) : List Piece :=
  commaSeparated (v.fields.map fun f => [Piece.name f.param, .blank ' '] ++ typePieces f.type)

/-- The initialisers in the constructor. -/
def initialisers (v : VariantShape) : List Piece :=
  commaSeparated (v.fields.map fun f => [Piece.name f.ident, .sign ":", .blank ' ', .name f.param])

/-- The first line of the constructor. -/
def constructorHead (r : String) (v : VariantShape) : List Piece :=
  [Piece.keyword "func", .blank ' ', .name ("New" ++ v.name), .sign "[", .name r, .blank ' ',
    .name "any", .sign "]", .sign "("] ++ (v.parameters ++
    ([Piece.sign ")", .blank ' ', .sign "*"] ++
    (applied v.name r ++ [Piece.blank ' ', .sign "\x7b"])))

/-- The line of the constructor that returns the new node. -/
def constructorReturn (r : String) (v : VariantShape) : List Piece :=
  [Piece.blank '\t', .keyword "return", .blank ' ', .sign "&"] ++ (applied v.name r ++
    ([Piece.sign "\x7b"] ++ (v.initialisers ++ [Piece.sign "\x7d"])))

/-- The constructor of a variant. -/
def constructorBlock (r : String) (v : VariantShape) : List (List Piece) :=
  [v.constructorHead r, v.constructorReturn r, [.sign "\x7d"]]

/-- The four blocks of a variant. -/
def blocks (r : String) (v : VariantShape) : List (List (List Piece)) :=
  [v.structBlock r, v.nodeBlock, v.acceptBlock r, v.constructorBlock r]

end VariantShape

/-! ## The file -/

/-- The pieces of a package clause. -/
def packageLines (package : String) : List (List Piece) :=
  [[.keyword "package", .blank ' ', .name package]]

/-- The pieces of imports, which are left out when there is nothing to import. -/
def importLines (paths : List String) : List (List (List Piece)) :=
  match paths with
  | [] => []
  | paths => [[[Piece.keyword "import", .blank ' ', .sign "("]] ++
      paths.map (fun p => [Piece.blank '\t', .quoted p]) ++ [[Piece.sign ")"]]]

/-- The interface of all nodes. -/
def nodeLines (r : String) : List (List Piece) :=
  [[.comment (nodeName ++ " is implemented by every expression variant. Accept dispatches to the")],
    [.comment (visitorName ++ " method matching the concrete variant.")],
    [.keyword "type", .blank ' ', .name nodeName, .sign "[", .name r, .blank ' ', .name "any",
      .sign "]", .blank ' ', .keyword "interface", .blank ' ', .sign "\x7b"],
    [.blank '\t', .name acceptName, .sign "(", .name "visitor", .blank ' ', .name visitorName,
      .sign "[", .name r, .sign "]", .sign ")", .blank ' ', .name r],
    [.sign "\x7d"]]

/-- The interface of all visitors. -/
def visitorLines (r : String) (vs : List VariantShape) : List (List Piece) :=
  [[Piece.comment (visitorName ++ " has one method per expression variant.")],
    [Piece.keyword "type", .blank ' ', .name visitorName, .sign "[", .name r, .blank ' ',
      .name "any", .sign "]", .blank ' ', .keyword "interface", .blank ' ', .sign "\x7b"]] ++
    vs.map (VariantShape.visitorLine r) ++ [[Piece.sign "\x7d"]]

/-- The shapes of the variants of a file. -/
def SourceFile.shapes (f : SourceFile) : List VariantShape :=
  f.schema.variants.map (VariantShape.of f.exportFields (resultParam f.schema))

/-- The blocks of a draft. -/
def SourceFile.draftBlocks (f : SourceFile) : List (List (List Piece)) :=
  let r := resultParam f.schema
  packageLines f.package :: importLines (draftPaths f.imports) ++
    [nodeLines r, visitorLines r f.shapes] ++ f.shapes.flatMap (VariantShape.blocks r)

/-- The lines of a draft: the opening comment, the blocks with an empty line between each two, and
an empty line at the end. -/
def SourceFile.draftLines (f : SourceFile) : List (List Piece) :=
  [.comment ("Code generated by " ++ f.generatorName.shown ++ ". DO NOT EDIT.")] :: [] ::
    (List.intercalate [[]] f.draftBlocks ++ [[]])

/-! ## The text of the lines -/

/-- Joined lists are mapped part by part. -/
theorem map_intercalate {α β : Type} (f : α → β) (sep : List α) (xss : List (List α)) :
    (sep.intercalate xss).map f = (sep.map f).intercalate (xss.map (List.map f)) := by
  induction xss with
  | nil => simp
  | cons xs xss ih =>
    cases xss with
    | nil => simp
    | cons ys xss =>
      rw [List.intercalate_cons_cons, List.map_append, List.map_append, ih]
      simp

/-- A text is that of pieces when it has their characters. -/
theorem eq_textOf_iff {s : String} {ps : List Piece} :
    s = textOf ps ↔ s.toList = Piece.charsOf ps := by
  rw [textOf, ← String.toList_inj, String.toList_ofList]

/-- The text of pieces is the text of their parts. -/
theorem charsOf_append (ps qs : List Piece) :
    Piece.charsOf (ps ++ qs) = Piece.charsOf ps ++ Piece.charsOf qs :=
  List.flatMap_append

/-- The text of items with commas between them. -/
theorem charsOf_commaSeparated (items : List (List Piece)) :
    Piece.charsOf (VariantShape.commaSeparated items) =
      (", ".intercalate (items.map textOf)).toList := by
  induction items with
  | nil => simp [VariantShape.commaSeparated, Piece.charsOf]
  | cons item items ih =>
    cases items with
    | nil => simp [VariantShape.commaSeparated, textOf]
    | cons next items =>
      rw [List.map_cons, List.map_cons, String.intercalate_cons_cons, ← List.map_cons,
        String.toList_append, ← ih, VariantShape.commaSeparated, List.intercalate_cons_cons,
        charsOf_append]
      simp [VariantShape.commaSeparated, textOf, Piece.charsOf, Piece.chars]

namespace VariantShape

/-- The method of the visitor interface is written as its pieces. -/
theorem visitorLine_source (r : String) (v : VariantShape) :
    v.source.visitorLine r = textOf (v.visitorLine r) := by
  rw [eq_textOf_iff]
  simp [VariantSource.visitorLine, VariantSource.visitMethod, VariantSource.applied, source,
    visitorLine, visitMethod, applied, Piece.charsOf, Piece.chars]

/-- The struct is written as its pieces. -/
theorem structBlock_source (r : String) (v : VariantShape) :
    v.source.structBlock false r = (v.structBlock r).map textOf := by
  have hfirst : "type " ++ v.source.applied (r ++ " any") ++ " struct \x7b" =
      textOf [.keyword "type", .blank ' ', .name v.name, .sign "[", .name r, .blank ' ',
        .name "any", .sign "]", .blank ' ', .keyword "struct", .blank ' ', .sign "\x7b"] := by
    rw [eq_textOf_iff]
    simp [VariantSource.applied, source, Piece.charsOf, Piece.chars]
  have hfields : FieldSource.structLines false v.source.fields = v.fields.map fun f =>
      textOf ([.blank '\t', .name f.ident, .blank ' '] ++ typePieces f.type) := by
    simp only [FieldSource.structLines, source, List.map_map]
    refine List.map_congr_left fun f _ => ?_
    rw [eq_textOf_iff, charsOf_append]
    simp [FieldSource.structLine, FieldShape.source, textOf, Piece.charsOf, Piece.chars]
  rw [VariantSource.structBlock, hfirst, hfields]
  simp [structBlock, eq_textOf_iff, Piece.charsOf, Piece.chars]

/-- The check is written as its pieces. -/
theorem nodeBlock_source (v : VariantShape) : v.source.nodeBlock = v.nodeBlock.map textOf := by
  simp [VariantSource.nodeBlock, VariantSource.applied, source, nodeBlock, applied, eq_textOf_iff,
    Piece.charsOf, Piece.chars]

/-- The accepting method is written as its pieces. -/
theorem acceptBlock_source (r : String) (v : VariantShape) :
    v.source.acceptBlock r = (v.acceptBlock r).map textOf := by
  simp [VariantSource.acceptBlock, VariantSource.applied, VariantSource.visitMethod, source,
    acceptBlock, applied, visitMethod, eq_textOf_iff, Piece.charsOf, Piece.chars]

/-- The parameters are written as their pieces. -/
theorem charsOf_parameters (v : VariantShape) :
    Piece.charsOf v.parameters =
      (", ".intercalate (v.source.fields.map FieldSource.parameter)).toList := by
  rw [parameters, charsOf_commaSeparated, source, List.map_map, List.map_map]
  congr 2
  refine List.map_congr_left fun f _ => (eq_textOf_iff.2 ?_).symm
  rw [charsOf_append]
  simp [FieldSource.parameter, FieldShape.source, textOf, Piece.charsOf, Piece.chars]

/-- The initialisers are written as their pieces. -/
theorem charsOf_initialisers (v : VariantShape) :
    Piece.charsOf v.initialisers =
      (", ".intercalate (v.source.fields.map FieldSource.initialiser)).toList := by
  rw [initialisers, charsOf_commaSeparated, source, List.map_map, List.map_map]
  congr 2
  refine List.map_congr_left fun f _ => (eq_textOf_iff.2 ?_).symm
  simp [FieldSource.initialiser, FieldShape.source, Piece.charsOf, Piece.chars]

/-- The constructor is written as its pieces. -/
theorem constructorBlock_source (r : String) (v : VariantShape) :
    v.source.constructorBlock r = (v.constructorBlock r).map textOf := by
  simp only [VariantSource.constructorBlock, constructorBlock, constructorHead, constructorReturn,
    List.map_cons, List.map_nil, List.cons.injEq, and_true, eq_textOf_iff, String.toList_append,
    charsOf_append, charsOf_parameters, charsOf_initialisers]
  simp [VariantSource.applied, VariantSource.constructorName, source, applied, Piece.charsOf,
    Piece.chars]

/-- The blocks of a variant are written as their pieces. -/
theorem blocks_source (r : String) (v : VariantShape) :
    v.source.blocks false r = (v.blocks r).map (List.map textOf) := by
  simp [VariantSource.blocks, blocks, structBlock_source, nodeBlock_source, acceptBlock_source,
    constructorBlock_source]

end VariantShape

/-- The imports are written as their pieces. -/
theorem importBlock_eq (paths : List String) :
    importBlock paths = (importLines paths).map (List.map textOf) := by
  cases paths with
  | nil => rfl
  | cons p paths => simp [importBlock, importLines, eq_textOf_iff, Piece.charsOf, Piece.chars]

/-- The interface of all nodes is written as its pieces. -/
theorem nodeInterface_eq (r : String) : nodeInterface r = (nodeLines r).map textOf := by
  simp [nodeInterface, nodeLines, eq_textOf_iff, Piece.charsOf, Piece.chars]

/-- The interface of all visitors is written as its pieces. -/
theorem visitorInterface_eq (r : String) (vs : List VariantShape) :
    visitorInterface r (vs.map VariantShape.source) = (visitorLines r vs).map textOf := by
  simp [visitorInterface, visitorLines, VariantShape.visitorLine_source, eq_textOf_iff,
    Piece.charsOf, Piece.chars]

/-- The blocks of a draft are written as their pieces. -/
theorem SourceFile.blocks_eq (f : SourceFile) :
    f.blocks false (draftPaths f.imports) = f.draftBlocks.map (List.map textOf) := by
  have hvariants : f.variants = f.shapes.map VariantShape.source := by
    simp [SourceFile.variants, SourceFile.shapes, source_of]
  have hpackage : packageBlock f.package = (packageLines f.package).map textOf := by
    simp [packageBlock, packageLines, eq_textOf_iff, Piece.charsOf, Piece.chars]
  simp only [SourceFile.blocks, SourceFile.draftBlocks, hvariants, hpackage, importBlock_eq,
    nodeInterface_eq, visitorInterface_eq, List.map_cons, List.map_append, List.map_nil,
    List.flatMap_map, List.map_flatMap, VariantShape.blocks_source]

/-- The text of lines is that of each line with a line break after it. -/
theorem charsOf_ofLines (lines : List (List Piece)) :
    Piece.charsOf (Piece.ofLines lines) = lines.flatMap fun l => Piece.charsOf l ++ ['\n'] := by
  simp [Piece.charsOf, Piece.ofLines, List.flatMap_assoc, List.flatMap_append, Piece.chars]

/-- A draft as a text, where the generator's name is shown as one. -/
def SourceFile.draftText (f : SourceFile) : String :=
  headerText f.generatorName.shown ++ "\n\n" ++
    textOfBlocks (f.blocks false (draftPaths f.imports)) ++ "\n"

/-- A draft is a text when the generator's name is one. -/
theorem SourceFile.text?_draft (f : SourceFile) :
    f.draft.text? = f.generatorName.text?.map fun _ => f.draftText := by
  rw [draft, Text.Raw.text?_between]
  refine Option.map_congr fun name hname => ?_
  rw [draftText, headerText, Text.Raw.shown_eq hname]
  simp only [String.append_assoc]

/-- The layout of a draft is that of its text, when the generator's name is a text. -/
theorem SourceFile.format?_draft_eq (f : SourceFile) :
    Layout.format? f.draft =
      f.generatorName.text?.bind fun _ => Layout.formatText? f.draftText := by
  rw [Layout.format?, text?_draft, Option.bind_map]
  rfl

/-- A draft is the text of its lines. -/
theorem SourceFile.toList_draftText (f : SourceFile) :
    f.draftText.toList = Piece.charsOf (Piece.ofLines f.draftLines) := by
  have hblocks : List.intercalate [""] (f.draftBlocks.map (List.map textOf)) =
      (List.intercalate [[]] f.draftBlocks).map textOf := by
    rw [map_intercalate]
    simp [textOf, Piece.charsOf]
  -- Each line is ended by itself, for texts as for pieces.
  have hbody : (textOfBlocks (f.blocks false (draftPaths f.imports))).toList =
      (List.intercalate [[]] f.draftBlocks).flatMap fun l => Piece.charsOf l ++ ['\n'] := by
    rw [textOfBlocks, SourceFile.blocks_eq, hblocks, String.toList_join, List.map_map,
      List.flatMap_map]
    simp [textOf]
  have hheader : (headerText f.generatorName.shown).toList = Piece.charsOf
      [.comment ("Code generated by " ++ f.generatorName.shown ++ ". DO NOT EDIT.")] := by
    have hopening : headerStart.toList = '/' :: '/' :: ' ' :: "Code generated by ".toList := by
      decide +kernel
    unfold headerText headerEnd
    simp only [String.toList_append, hopening, Piece.charsOf, Piece.chars, List.flatMap_cons,
      List.flatMap_nil, List.append_nil, List.cons_append, List.append_assoc]
  rw [SourceFile.draftText, String.toList_append, String.toList_append, String.toList_append, hbody,
    hheader, charsOf_ofLines, SourceFile.draftLines, List.flatMap_cons, List.flatMap_cons,
    List.flatMap_append]
  simp [Piece.charsOf]

end NodeFamily.Emission
