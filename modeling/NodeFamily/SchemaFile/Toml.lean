import NodeFamily.SchemaFile.Basic
import NodeFamily.Toml.Table

/-!
# Schema files in TOML

The settings are the top-level keys of the document. Keys are matched without regard to case where
no setting is spelt exactly like them, and other keys and all tables are left out. A setting with a
value of the wrong kind makes the file unreadable.
-/

namespace NodeFamily.Toml

/-- A character without regard to case, for keys of ASCII letters: the two letters outside ASCII
whose case pairs are ASCII count as those. -/
def foldChar (c : Char) : Char :=
  if c = '\u212a' then 'k' else if c = '\u017f' then 's' else c.toLower

/-- The setting that a key names. -/
def setting? (key : String) : Option Setting :=
  (Setting.ofKey? key).orElse fun _ =>
    Setting.ofKey? (String.ofList (key.toList.map foldChar))

/-- The text of a value that is one. -/
def Value.text? : Value → Option String
  | .text s => some s
  | _ => none

/-- Gives a setting its value; nothing when the value is of the wrong kind. -/
def give? (f : SchemaFile) (s : Setting) (node : Node) : Option SchemaFile :=
  match s.shape, node with
  | .text, .leaf (.text v) => some (f.setText s v)
  | .flag, .leaf (.boolean v) => some (f.setFlag s v)
  | .list, .leaf (.list items) => (items.mapM Value.text?).map (f.setList s)
  | _, _ => none

/-- Gives every setting among the members its value. -/
def giveAll? (f : SchemaFile) : Members → Option SchemaFile
  | [] => some f
  | (key, node) :: rest =>
    match setting? key with
    | none => giveAll? f rest
    | some s => (give? f s node).bind fun f => giveAll? f rest

end NodeFamily.Toml

namespace NodeFamily.SchemaFile

/-- Reads a schema file in TOML. -/
def ofToml? (content : String) : Option SchemaFile :=
  (Toml.build? content).bind (Toml.giveAll? {})

end NodeFamily.SchemaFile
