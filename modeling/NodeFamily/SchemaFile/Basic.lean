import NodeFamily.Generation
import NodeFamily.Text.Cut

/-!
# Schema files

A schema file holds declarations together with the options for generating from them. Its format goes
by the extension of its path (`Format.ofPath`). This module has the record that every format is read
into; each format has a module of its own.
-/

namespace NodeFamily

/-- The formats of a schema file. -/
inductive Format
  /-- One declaration per line. -/
  | text
  | yaml
  | json
  | toml
deriving DecidableEq, Repr

namespace Format

/-- The name of a format. -/
def name : Format → String
  | .text => "text"
  | .yaml => "yaml"
  | .json => "json"
  | .toml => "toml"

/-- The number of a format. -/
def number : Format → Nat
  | .text => 0
  | .yaml => 1
  | .json => 2
  | .toml => 3

/-- The extension of a path: its last element from the last full stop on, or nothing when that has
none. -/
def extension (path : String) : String :=
  let element := path.toList.reverse.takeWhile (· ≠ '/')
  if element.contains '.' then
    String.ofList ('.' :: (element.takeWhile (· ≠ '.')).reverse)
  else ""

/-- The format of the file at a path. An unknown extension means lines of text. -/
def ofPath (path : String) : Format :=
  let ext := Text.lower (extension path)
  if ext = ".yaml" ∨ ext = ".yml" then .yaml
  else if ext = ".json" then .json
  else if ext = ".toml" then .toml
  else .text

end Format

/-- What a schema file holds. -/
structure SchemaFile where
  /-- The package of the emitted file. -/
  package : String := ""
  /-- The path of the emitted file. -/
  output : String := ""
  /-- The import paths. -/
  imports : List String := []
  /-- Whether struct fields are put into title case. -/
  exportFields : Bool := false
  /-- The generator named in the emitted file. -/
  generator : Text.Raw := ""
  /-- The declarations in order. -/
  variants : List String := []
  /-- The line of each declaration, from one, where the format is lines of text. -/
  lines : List Nat := []
deriving DecidableEq, Repr

namespace SchemaFile

/-- The line of declaration `i`, or zero when it is not known. -/
def line (f : SchemaFile) (i : Int) : Nat := if i < 0 then 0 else f.lines.getD i.toNat 0

/-- The options that a schema file sets. -/
def options (f : SchemaFile) : Options :=
  { package := f.package
    imports := f.imports
    exportFields := f.exportFields
    generator := f.generator }

end SchemaFile

/-- The settings of a schema file in the structured formats. -/
inductive Setting
  | package
  | output
  | imports
  | exportFields
  | generator
  | variants
deriving DecidableEq, Repr

namespace Setting

/-- All settings. -/
def all : List Setting := [.package, .output, .imports, .exportFields, .generator, .variants]

/-- The key of a setting. -/
def key : Setting → String
  | .package => "package"
  | .output => "output"
  | .imports => "imports"
  | .exportFields => "export_fields"
  | .generator => "generator"
  | .variants => "variants"

/-- The setting of a key that is spelt exactly. -/
def ofKey? (key : String) : Option Setting := all.find? (·.key = key)

/-- What kind of value a setting takes. -/
inductive Shape
  | text
  | flag
  | list
deriving DecidableEq, Repr

/-- The kind of value of a setting. -/
def shape : Setting → Shape
  | .package | .output | .generator => .text
  | .exportFields => .flag
  | .imports | .variants => .list

end Setting

namespace SchemaFile

/-- Gives a text setting its value. -/
def setText (f : SchemaFile) (s : Setting) (value : Text.Raw) : SchemaFile :=
  match s with
  | .package => { f with package := value.shown }
  | .output => { f with output := value.shown }
  | .generator => { f with generator := value }
  | _ => f

/-- Gives a list setting its value. -/
def setList (f : SchemaFile) (s : Setting) (value : List String) : SchemaFile :=
  match s with
  | .imports => { f with imports := value }
  | .variants => { f with variants := value }
  | _ => f

/-- The value of a list setting. -/
def list (f : SchemaFile) (s : Setting) : List String :=
  match s with
  | .imports => f.imports
  | .variants => f.variants
  | _ => []

/-- Gives a flag setting its value. -/
def setFlag (f : SchemaFile) (s : Setting) (value : Bool) : SchemaFile :=
  match s with
  | .exportFields => { f with exportFields := value }
  | _ => f

end SchemaFile

end NodeFamily
