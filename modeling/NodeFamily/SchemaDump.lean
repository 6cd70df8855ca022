import NodeFamily.Schema
import NodeFamily.Text.Quoted

/-!
# Schemas as JSON

`Schema.dump` writes a schema as a JSON object over several lines, each level indented by two
spaces: the variants with their names and fields, and the fields with type, name and kind.
-/

namespace NodeFamily

namespace Dump

/-- A character as it is written inside a JSON string. The marks of markup and the two separators
that end lines elsewhere are escaped as well. -/
def escape (c : Char) : List Char :=
  if c = '"' ∨ c = '\\' then ['\\', c]
  else if c = '\n' then ['\\', 'n']
  else if c = '\r' then ['\\', 'r']
  else if c = '\t' then ['\\', 't']
  else if c.toNat < 0x20 ∨ c = '<' ∨ c = '>' ∨ c = '&' ∨ c = '\u2028' ∨ c = '\u2029' then
    '\\' :: 'u' :: Text.hexDigits 4 c.toNat
  else [c]

/-- A text as a JSON string. -/
def string (s : String) : String := String.ofList ('"' :: (s.toList.flatMap escape ++ ['"']))

/-- Lines one level deeper. -/
def indent (lines : List String) : List String := lines.map ("  " ++ ·)

/-- Lines with a comma after the last one. -/
def withComma : List String → List String
  | [] => []
  | [line] => [line ++ ","]
  | line :: rest => line :: withComma rest

/-- The lines of several items, with commas between them. -/
def separated : List (List String) → List String
  | [] => []
  | [item] => item
  | item :: rest => withComma item ++ separated rest

/-- The lines of items between brackets. -/
def bracketed (opening closing : String) (items : List (List String)) : List String :=
  if items.isEmpty then [opening ++ closing]
  else opening :: (indent (separated items) ++ [closing])

/-- The lines of a member of an object. -/
def member (key : String) : List String → List String
  | [] => []
  | line :: rest => (string key ++ ": " ++ line) :: rest

/-- The lines of an object. -/
def object (members : List (String × List String)) : List String :=
  bracketed "\x7b" "\x7d" (members.map fun m => member m.1 m.2)

/-- The lines of an array. -/
def array (items : List (List String)) : List String := bracketed "[" "]" items

/-- The lines of a field. -/
def field (f : Field) : List String :=
  object [("type", [string f.type]), ("name", [string f.name]), ("kind", [string f.kind.text])]

/-- The lines of a variant. -/
def variant (v : Variant) : List String :=
  object [("name", [string v.name]), ("fields", array (v.fields.map field))]

/-- The lines of a schema. -/
def schema (s : Schema) : List String :=
  object [("variants", array (s.variants.map variant))]

end Dump

/-- A schema as JSON, with a line feed at its end. -/
def Schema.dump (s : Schema) : String := "\n".intercalate (Dump.schema s) ++ "\n"

end NodeFamily
