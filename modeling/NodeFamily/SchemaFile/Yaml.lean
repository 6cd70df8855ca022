import NodeFamily.SchemaFile.Basic
import NodeFamily.Yaml.Meaning
import NodeFamily.Yaml.Node

/-!
# Schema files in YAML

The settings are the entries of the mapping that is the first document; an empty document sets
nothing. Keys are matched exactly, and other keys are left out together with their values. A text
takes any scalar as it is written. A scalar that means nothing leaves a text or a flag as it is, and
empties a list; inside a list it is dropped. The key `<<` merges the entries of other mappings in,
where no key of its own mapping or of an earlier one stands against them.

A document in which nearly everything that is read comes from aliases is refused (`Effort`).
-/

namespace NodeFamily.Yaml

/-- How much of a document has been read. -/
structure Effort where
  /-- The number of nodes read. -/
  visits : Nat := 0
  /-- How many of them were read through an alias. -/
  aliased : Nat := 0
deriving DecidableEq, Repr

namespace Effort

/-- Whether too great a part comes from aliases. Of a document of up to 400 000 nodes, 99 hundredths
may, and of one of 4 000 000 or more, 10 hundredths; the part falls evenly between the two. -/
def isExcessive (e : Effort) : Bool :=
  let beyond := min e.visits 4000000 - 400000
  100 < e.aliased && 1000 < e.visits &&
    (99 * 3600000 - 89 * beyond) * e.visits < 360000000 * e.aliased

/-- Counts one more node. -/
def count? (e : Effort) (inAlias : Bool) : Option Effort :=
  let e := { visits := e.visits + 1, aliased := e.aliased + (if inAlias then 1 else 0) }
  if e.isExcessive then none else some e

end Effort

/-- Reading that may fail and counts the nodes it reads. -/
abbrev Reading := StateT Effort Option

namespace Reading

/-- Reading that fails. -/
def fail {α : Type} : Reading α := fun _ => none

/-- Goes on with an answer that may be missing. -/
def ofOption {α : Type} (a? : Option α) : Reading α := fun e => a?.map (·, e)

/-- Counts one more node. -/
def visit (inAlias : Bool) : Reading Unit := fun e => (e.count? inAlias).map ((), ·)

/-- The node that is meant, and whether an alias led to it. -/
def follow (inAlias : Bool) : Node → Reading (Node × Bool)
  | .alias _ (some target) => do
    visit inAlias
    visit true
    return (target, true)
  | .alias _ none => fail
  | node => do
    visit inAlias
    return (node, inAlias)

/-- Reads a text, which may have been written in octets. -/
def raw (inAlias : Bool) (node : Node) : Reading (Option Text.Raw) := do
  match ← follow inAlias node with
  | (.scalar isPlain tag s, _) =>
    match ← ofOption (Meaning.of? isPlain tag s) with
    | .nothing => return none
    | .flag _ => return some s
    | .text t => return some t
  | _ => fail

/-- Reads a text. -/
def text (inAlias : Bool) (node : Node) : Reading (Option String) := do
  return (← raw inAlias node).map Text.Raw.shown

/-- The truth value of a text where only a flag is asked for. -/
def wordFlag? (s : String) : Option Bool :=
  if ["y", "Y", "yes", "Yes", "YES", "on", "On", "ON"].contains s then some true
  else if ["n", "N", "no", "No", "NO", "off", "Off", "OFF"].contains s then some false
  else none

/-- Reads a flag. -/
def flag (inAlias : Bool) (node : Node) : Reading (Option Bool) := do
  match ← follow inAlias node with
  | (.scalar isPlain tag s, _) =>
    match ← ofOption (Meaning.of? isPlain tag s) with
    | .nothing => return none
    | .flag b => return some b
    | .text t => return some (← ofOption (wordFlag? t.shown))
  | _ => fail

/-- Reads a list of texts. -/
def list (inAlias : Bool) (node : Node) : Reading (List String) := do
  match ← follow inAlias node with
  | (.scalar isPlain tag s, _) =>
    match ← ofOption (Meaning.of? isPlain tag s) with
    | .nothing => return []
    | _ => fail
  | (.sequence items, inAlias) => return (← items.mapM (text inAlias)).filterMap id
  | _ => fail

/-- Gives a setting its value. -/
def give (inAlias : Bool) (f : SchemaFile) (s : Setting) (node : Node) : Reading SchemaFile := do
  match s.shape with
  | .text => return (← raw inAlias node).elim f (f.setText s)
  | .flag => return (← flag inAlias node).elim f (f.setFlag s)
  | .list => return f.setList s (← list inAlias node)

/-- Whether two keys count as the same: both scalars, or both aliases, of one spelling, or both
sequences or mappings. -/
def sameKey : Node → Node → Bool
  | .scalar _ _ a, .scalar _ _ b => a == b
  | .alias a _, .alias b _ => a == b
  | .sequence _, .sequence _ => true
  | .mapping _, .mapping _ => true
  | _, _ => false

/-- Whether a key is repeated. -/
def hasRepeatedKey : List (Node × Node) → Bool
  | [] => false
  | (key, _) :: rest => rest.any (fun entry => sameKey key entry.1) || hasRepeatedKey rest

/-- Whether a key merges other mappings in. -/
def isMergeKey : Node → Bool
  | .scalar isPlain tag s =>
    s == "<<" && ((isPlain && (tag == "" || tag == "!")) || Meaning.shortTag tag == "!!merge")
  | _ => false

/-- What has been read of a mapping. -/
structure Progress where
  /-- The settings. -/
  file : SchemaFile
  /-- The keys that count no more, where the mapping is merged into another. -/
  taken : Option (List String)
  /-- The settings that this mapping has given. -/
  given : List Setting := []

/-- Reads one entry that is not a merge. -/
def entry (inAlias : Bool) (p : Progress) (key value : Node) : Reading Progress := do
  match ← text inAlias key with
  | none => return p
  | some name =>
    if (p.taken.getD []).contains name then return p
    else
      let p := { p with taken := p.taken.map (name :: ·) }
      match Setting.ofKey? name with
      | none => return p
      | some s =>
        if p.given.contains s then fail
        else return { p with file := ← give inAlias p.file s value, given := s :: p.given }

/-- Reads all entries that are not merges. -/
def entries (inAlias : Bool) (p : Progress) (es : List (Node × Node)) : Reading Progress :=
  (es.filter fun e => !isMergeKey e.1).foldlM (fun p e => entry inAlias p e.1 e.2) p

/-- The mappings that a merge brings in, in order. -/
def sources : Node → List Node
  | .sequence items => items
  | node => [node]

/-- Reads a mapping, and then the mappings that it merges in. `taken` are the keys that count no
more, where it is merged itself; the answer has those after it. -/
def mapping : (fuel : Nat) → (inAlias : Bool) → SchemaFile → (taken : Option (List String)) →
    List (Node × Node) → Reading (SchemaFile × Option (List String))
  | 0, _, _, _, _ => fail
  | fuel + 1, inAlias, f, taken, es => do
    if hasRepeatedKey es then fail
    let p ← entries inAlias ⟨f, taken, []⟩ es
    match es.find? fun e => isMergeKey e.1 with
    | none => return (p.file, p.taken)
    | some (_, source) =>
      let names ← match p.taken with
        | some names => pure names
        | none => do
          let keys ← es.mapM fun e => text inAlias e.1
          pure (keys.filterMap id)
      let merged ← (sources source).foldlM (fun (acc : SchemaFile × Option (List String)) node => do
        match ← follow inAlias node with
        | (.mapping es, inAlias) => mapping fuel inAlias acc.1 acc.2 es
        | _ => fail) (p.file, some names)
      return (merged.1, p.taken.bind fun _ => merged.2)

/-- Reads the root of a document. -/
def root (fuel : Nat) (node : Node) : Reading SchemaFile := do
  visit false
  match ← follow false node with
  | (.mapping es, _) => return (← mapping fuel false {} none es).1
  | (.scalar isPlain tag s, _) =>
    match ← ofOption (Meaning.of? isPlain tag s) with
    | .nothing => return {}
    | _ => fail
  | _ => fail

end Reading

end NodeFamily.Yaml

namespace NodeFamily.SchemaFile

/-- Reads a schema file in YAML. -/
def ofYaml? (content : String) : Option SchemaFile :=
  (Yaml.Node.ofTokens? (Yaml.Token.scan content)).bind fun node =>
    ((Yaml.Reading.root (content.length + 1) node).run {}).map (·.1)

end NodeFamily.SchemaFile
