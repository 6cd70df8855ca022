import NodeFamily.SchemaFile.Json
import NodeFamily.SchemaFile.Lines
import NodeFamily.SchemaFile.Toml
import NodeFamily.SchemaFile.Yaml

/-!
# Contents of schema files

`SchemaFile.ofContent` reads the content of a schema file in a given format.
-/

namespace NodeFamily

/-- Why the content of a schema file cannot be read. -/
inductive Unreadable
  /-- There is no such format. -/
  | unsupported
  /-- A line of text is too long. -/
  | lineTooLong
  /-- The content is not what a structured format asks for. -/
  | malformed (format : Format)
deriving DecidableEq, Repr

namespace Unreadable

/-- The text of the error. -/
def message : Unreadable → String
  | .unsupported => "unsupported format: text"
  | .lineTooLong => "text parse error: bufio.Scanner: token too long"
  | .malformed format => format.name ++ " parse error"

end Unreadable

namespace SchemaFile

/-- The file that was read, or else the error. -/
def orFail (e : Unreadable) : Option SchemaFile → Except Unreadable SchemaFile
  | some f => .ok f
  | none => .error e

/-- Reads the content of a schema file. -/
def ofContent (format? : Option Format) (content : String) : Except Unreadable SchemaFile :=
  match format? with
  | none => .error .unsupported
  | some .text => orFail .lineTooLong (ofLines? content)
  | some .yaml => orFail (.malformed .yaml) (ofYaml? content)
  | some .json => orFail (.malformed .json) (ofJson? content)
  | some .toml => orFail (.malformed .toml) (ofToml? content)

end SchemaFile

end NodeFamily
