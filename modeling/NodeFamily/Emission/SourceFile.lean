import NodeFamily.Emission.Preamble
import NodeFamily.Emission.ResultParam
import NodeFamily.Layout.Format
import NodeFamily.SchemaCheck

/-!
# The emitted file

`SourceFile.render?` writes the Go source of a node family: the node interface, the visitor
interface, and for each variant a struct, a check that it is a node, its accepting method and its
constructor. The file is made of blocks of lines with an empty line between each two.

A file of identifiers and type names is in the standard layout as `SourceFile.text` writes it, with
its imports sorted and its types in columns, and nothing is left that could fail. In any other file
the texts of the schema stand as they are, which may be anything: such a file is a draft, which
`Layout.format?` reads and lays out, unless it is no Go source at all.
-/

namespace NodeFamily.Emission

/-- A field as the file writes it. -/
structure FieldSource where
  /-- The identifier of the struct field. -/
  ident : String
  /-- The name of the constructor's parameter. -/
  param : String
  /-- The type in the struct and in the parameter list. -/
  type : String
deriving DecidableEq, Repr

/-- The type of a field: the node interface for a child, and what the schema says for a leaf. -/
def fieldType (resultName : String) (f : Field) : String :=
  if f.kind = .recursive then nodeName ++ "[" ++ resultName ++ "]" else f.type

/-- A field as the file writes it. -/
def FieldSource.of (exported : Bool) (resultName : String) (f : Field) : FieldSource :=
  ⟨fieldIdent exported f.name, f.name, fieldType resultName f⟩

/-- Whether a field is written with identifiers and type names only. -/
def isPlainField (exported : Bool) (f : Field) : Bool :=
  isIdentifier f.name && isIdentifier (fieldIdent exported f.name) &&
    (f.kind == .recursive || isTypeName f.type)

namespace FieldSource

/-- The initialiser of the field in the constructor. -/
def initialiser (f : FieldSource) : String := f.ident ++ ": " ++ f.param

/-- The parameter of the constructor. -/
def parameter (f : FieldSource) : String := f.param ++ " " ++ f.type

/-- The line of a struct field whose identifier is padded to a width. -/
def structLine (width : Nat) (f : FieldSource) : String :=
  "\t" ++ f.ident ++ String.ofList (List.replicate (width + 1 - f.ident.length) ' ') ++ f.type

/-- The greatest width of an identifier. -/
def greatestWidth (fs : List FieldSource) : Nat := (fs.map (·.ident.length)).foldl max 0

/-- The lines of struct fields, with the types in one column if asked to. -/
def structLines (inColumns : Bool) (fs : List FieldSource) : List String :=
  if inColumns then fs.map (structLine (greatestWidth fs))
  else fs.map fun f => structLine f.ident.length f

end FieldSource

/-- A variant as the file writes it. -/
structure VariantSource where
  /-- The name of the struct. -/
  name : String
  /-- The fields in order. -/
  fields : List FieldSource
deriving DecidableEq, Repr

/-- A variant as the file writes it. -/
def VariantSource.of (exported : Bool) (resultName : String) (v : Variant) : VariantSource :=
  ⟨v.name, v.fields.map (FieldSource.of exported resultName)⟩

/-- Whether a variant is written with identifiers and type names only. -/
def isPlainVariant (exported : Bool) (v : Variant) : Bool :=
  isIdentifier v.name && v.fields.all (isPlainField exported)

namespace VariantSource

/-- The visitor method of a variant. -/
def visitMethod (v : VariantSource) : String := "Visit" ++ v.name ++ "Expr"

/-- The constructor of a variant. -/
def constructorName (v : VariantSource) : String := "New" ++ v.name

/-- The variant with its type argument. -/
def applied (v : VariantSource) (arg : String) : String := v.name ++ "[" ++ arg ++ "]"

/-- The method of the visitor interface for a variant. -/
def visitorLine (r : String) (v : VariantSource) : String :=
  "\t" ++ v.visitMethod ++ "(expr *" ++ v.applied r ++ ") " ++ r

/-- The struct of a variant, with its types in one column if asked to. -/
def structBlock (inColumns : Bool) (r : String) (v : VariantSource) : List String :=
  ["type " ++ v.applied (r ++ " any") ++ " struct \x7b"] ++
    FieldSource.structLines inColumns v.fields ++ ["\x7d"]

/-- The check that a variant is a node. -/
def nodeBlock (v : VariantSource) : List String :=
  ["var _ " ++ nodeName ++ "[any] = (*" ++ v.applied "any" ++ ")(nil)"]

/-- The accepting method of a variant. -/
def acceptBlock (r : String) (v : VariantSource) : List String :=
  ["func (e *" ++ v.applied r ++ ") " ++ acceptName ++ "(visitor " ++ visitorName ++ "[" ++ r ++
      "]) " ++ r ++ " \x7b",
    "\treturn visitor." ++ v.visitMethod ++ "(e)",
    "\x7d"]

/-- The constructor of a variant. -/
def constructorBlock (r : String) (v : VariantSource) : List String :=
  ["func " ++ v.constructorName ++ "[" ++ r ++ " any](" ++
      ", ".intercalate (v.fields.map FieldSource.parameter) ++ ") *" ++ v.applied r ++ " \x7b",
    "\treturn &" ++ v.applied r ++ "\x7b" ++
      ", ".intercalate (v.fields.map FieldSource.initialiser) ++ "\x7d",
    "\x7d"]

/-- The four blocks of a variant. -/
def blocks (inColumns : Bool) (r : String) (v : VariantSource) : List (List String) :=
  [v.structBlock inColumns r, v.nodeBlock, v.acceptBlock r, v.constructorBlock r]

end VariantSource

/-- The interface of all nodes. -/
def nodeInterface (r : String) : List String :=
  ["// " ++ nodeName ++ " is implemented by every expression variant. Accept dispatches to the",
    "// " ++ visitorName ++ " method matching the concrete variant.",
    "type " ++ nodeName ++ "[" ++ r ++ " any] interface \x7b",
    "\t" ++ acceptName ++ "(visitor " ++ visitorName ++ "[" ++ r ++ "]) " ++ r,
    "\x7d"]

/-- The interface of all visitors. -/
def visitorInterface (r : String) (vs : List VariantSource) : List String :=
  ["// " ++ visitorName ++ " has one method per expression variant.",
    "type " ++ visitorName ++ "[" ++ r ++ " any] interface \x7b"] ++
    vs.map (VariantSource.visitorLine r) ++ ["\x7d"]

/-- What goes into one emitted file. -/
structure SourceFile where
  /-- The package of the file. -/
  package : String
  /-- The generator named in the opening comment; a fixed one when empty. -/
  generator : Text.Raw
  /-- The import paths, in any order and with any repetitions. -/
  imports : List String
  /-- Whether the struct fields are put into title case. -/
  exportFields : Bool
  /-- The node family, whose fields are marked. -/
  schema : Schema
deriving DecidableEq, Repr

/-- The generator named when nobody gives another. -/
def defaultGenerator : String := "astgen"

/-- The text of blocks with an empty line between each two. -/
def textOfBlocks (blocks : List (List String)) : String :=
  String.join ((List.intercalate [""] blocks).map (· ++ "\n"))

namespace SourceFile

/-- The generator that the file names. -/
def generatorName (f : SourceFile) : Text.Raw :=
  if f.generator = ("" : String) then defaultGenerator else f.generator

/-- The variants as the file writes them. -/
def variants (f : SourceFile) : List VariantSource :=
  f.schema.variants.map (VariantSource.of f.exportFields (resultParam f.schema))

/-- The blocks of the file after its opening comment, with the imports as given. -/
def blocks (f : SourceFile) (inColumns : Bool) (paths : List String) : List (List String) :=
  let r := resultParam f.schema
  packageBlock f.package :: importBlock paths ++ [nodeInterface r, visitorInterface r f.variants] ++
    f.variants.flatMap (VariantSource.blocks inColumns r)

/-- Whether the generator's name is a text that stays on its line and can stand in source text. -/
def hasPlainGenerator (f : SourceFile) : Bool :=
  f.generatorName.text?.any fun name =>
    name.toList.all fun c => c != '\n' && !Layout.isForbidden c

/-- Whether the file is written with identifiers and type names only. -/
def isPlain (f : SourceFile) : Bool :=
  f.hasPlainGenerator && isIdentifier f.package &&
    f.schema.variants.all (isPlainVariant f.exportFields)

/-- The opening comment of a plain file, without carriage returns. -/
def header (f : SourceFile) : String :=
  String.ofList ((headerText f.generatorName.shown).toList.filter (· ≠ '\r'))

/-- The text of a plain file. A form feed in the opening comment counts as the line break after it,
so that no empty line follows. -/
def text (f : SourceFile) : String :=
  let body := textOfBlocks (f.blocks true (importPaths f.imports))
  f.header ++ (if f.header.toList.contains '\x0c' then "\n" else "\n\n") ++ body

/-- The file with the texts of the schema and the generator's name as they are, not laid out. -/
def draft (f : SourceFile) : Text.Raw :=
  Text.Raw.ofString headerStart ++ f.generatorName ++ Text.Raw.ofString
    (headerEnd ++ "\n\n" ++ textOfBlocks (f.blocks false (draftPaths f.imports)) ++ "\n")

/-- The text of the file, or nothing when some text cannot stand where the file needs it. -/
def render? (f : SourceFile) : Option String :=
  if f.isPlain then some f.text else Layout.format? f.draft

end SourceFile

end NodeFamily.Emission
