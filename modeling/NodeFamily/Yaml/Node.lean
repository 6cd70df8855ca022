import NodeFamily.Yaml.Token

/-!
# Nodes of a YAML document

`Node.ofTokens?` reads the first document of a text and leaves the others alone. A node is a scalar,
a sequence, a mapping or an alias, which is kept as such together with the node that it stands for.
-/

namespace NodeFamily.Yaml

/-- A node of a document. -/
inductive Node
  /-- A text with its tag, which is empty where none is given. -/
  | scalar (isPlain : Bool) (tag text : String)
  | sequence (items : List Node)
  | mapping (entries : List (Node × Node))
  /-- The node with an anchor. It is missing where the alias stands inside that node itself. -/
  | alias (name : String) (target : Option Node)
deriving Repr

namespace Node

/-- The node where nothing is written. -/
def empty : Node := .scalar true "" ""

end Node

/-- The state of reading nodes. -/
structure Reader where
  /-- The tokens that are left. -/
  tokens : List Token
  /-- A bound on the number of all tokens. -/
  bound : Nat
  /-- The anchors seen, the latest first, with their nodes as far as those are complete. -/
  anchors : List (String × Option Node) := []

namespace Reader

/-- Passes over a token. -/
def skip (r : Reader) : Reader := { r with tokens := r.tokens.tail }

/-- Notes an anchor, where there is one, and the node that has it. -/
def mark (r : Reader) (anchor? : Option String) (node? : Option Node) : Reader :=
  match anchor? with
  | some name => { r with anchors := (name, node?) :: r.anchors }
  | none => r

/-- Completes the node of an anchor that `earlier` anchors were noted before. -/
def complete (r : Reader) (anchor? : Option String) (earlier : Nat) (node : Node) : Reader :=
  match anchor? with
  | some name =>
    { r with anchors := r.anchors.set (r.anchors.length - 1 - earlier) (name, some node) }
  | none => r

/-- A reader of one node. The flags say whether it may be a block, and whether a block sequence in
it may do without further indentation. -/
abbrev Child := (block indentless : Bool) → Reader → Option (Node × Reader)

/-- Reads a node unless the next token satisfies `p`; then nothing is written there. -/
def orEmpty (p : Token → Bool) (read : Reader → Option (Node × Reader)) (r : Reader) :
    Option (Node × Reader) :=
  match r.tokens with
  | [] => none
  | t :: _ => if p t then some (.empty, r) else read r

/-- Whether a token ends an entry of a block sequence. -/
def endsItem (t : Token) : Bool := t == .blockEntry || t == .blockEnd

/-- Whether a token ends a key or a value of a block mapping. -/
def endsMember (t : Token) : Bool := t == .key || t == .value || t == .blockEnd

/-- Reads the items of a block sequence to its end. -/
def blockItems? (child : Child) : (fuel : Nat) → Reader → Option (List Node × Reader)
  | 0, _ => none
  | fuel + 1, r =>
    match r.tokens with
    | .blockEntry :: _ =>
      (orEmpty endsItem (child true false) r.skip).bind fun (item, r) =>
        (blockItems? child fuel r).map fun (items, r) => (item :: items, r)
    | .blockEnd :: _ => some ([], r.skip)
    | _ => none

/-- Reads the items of a block sequence that is indented like the mapping around it. -/
def indentlessItems? (child : Child) : (fuel : Nat) → Reader → Option (List Node × Reader)
  | 0, _ => none
  | fuel + 1, r =>
    match r.tokens with
    | [] => none
    | .blockEntry :: _ =>
      (orEmpty (fun t => endsItem t || endsMember t) (child true false) r.skip).bind
        fun (item, r) =>
          (indentlessItems? child fuel r).map fun (items, r) => (item :: items, r)
    | _ => some ([], r)

/-- Reads the value after a key, or nothing where there is no colon. `p` says which tokens end it.
-/
def valueOrEmpty (p : Token → Bool) (read : Reader → Option (Node × Reader)) (r : Reader) :
    Option (Node × Reader) :=
  match r.tokens with
  | [] => none
  | .value :: _ => orEmpty p read r.skip
  | _ => some (.empty, r)

/-- Reads the entries of a block mapping to its end. -/
def blockEntries? (child : Child) : (fuel : Nat) → Reader → Option (List (Node × Node) × Reader)
  | 0, _ => none
  | fuel + 1, r =>
    match r.tokens with
    | .key :: _ =>
      (orEmpty endsMember (child true true) r.skip).bind fun (key, r) =>
        (valueOrEmpty endsMember (child true true) r).bind fun (value, r) =>
          (blockEntries? child fuel r).map fun (entries, r) => ((key, value) :: entries, r)
    | .blockEnd :: _ => some ([], r.skip)
    | _ => none

/-- Passes the comma before an entry in brackets that is not the first. -/
def overComma? (first : Bool) (r : Reader) : Option Reader :=
  if first then some r
  else match r.tokens with
    | .flowEntry :: _ => some r.skip
    | _ => none

/-- Whether a token ends what stands in a bracketed sequence. -/
def endsFlowItem (t : Token) : Bool := t == .flowEntry || t == .flowSequenceEnd

/-- Whether a token ends what stands in a bracketed mapping. -/
def endsFlowMember (t : Token) : Bool := t == .flowEntry || t == .flowMappingEnd

/-- Reads the key of a mapping of one entry inside a bracketed sequence, after its mark. A token
that stands in place of the key is passed over. -/
def singleKey? (child : Child) (r : Reader) : Option (Node × Reader) :=
  match r.tokens with
  | [] => none
  | t :: _ => if t == .value || endsFlowItem t then some (.empty, r.skip) else child false false r

/-- Reads a mapping of one entry inside a bracketed sequence, after the mark of its key. -/
def singlePair? (child : Child) (r : Reader) : Option (Node × Reader) :=
  (singleKey? child r).bind fun (key, r) =>
    (valueOrEmpty endsFlowItem (child false false) r).map fun (value, r) =>
      (.mapping [(key, value)], r)

/-- Reads the items of a bracketed sequence and its closing bracket. -/
def flowItems? (child : Child) : (fuel : Nat) → (first : Bool) → Reader →
    Option (List Node × Reader)
  | 0, _, _ => none
  | fuel + 1, first, r =>
    if r.tokens.head? = some .flowSequenceEnd then some ([], r.skip)
    else (overComma? first r).bind fun r =>
      match r.tokens with
      | .flowSequenceEnd :: _ => some ([], r.skip)
      | .key :: _ =>
        (singlePair? child r.skip).bind fun (item, r) =>
          (flowItems? child fuel false r).map fun (items, r) => (item :: items, r)
      | _ =>
        (child false false r).bind fun (item, r) =>
          (flowItems? child fuel false r).map fun (items, r) => (item :: items, r)

/-- Reads an entry of a bracketed mapping. Without the mark of a key there is no value. -/
def flowPair? (child : Child) (r : Reader) : Option ((Node × Node) × Reader) :=
  match r.tokens with
  | .key :: _ =>
    (orEmpty (fun t => t == .value || endsFlowMember t) (child false false) r.skip).bind
      fun (key, r) =>
        (valueOrEmpty endsFlowMember (child false false) r).map fun (value, r) =>
          ((key, value), r)
  | _ => (child false false r).map fun (key, r) => ((key, .empty), r)

/-- Reads the entries of a bracketed mapping and its closing bracket. -/
def flowEntries? (child : Child) : (fuel : Nat) → (first : Bool) → Reader →
    Option (List (Node × Node) × Reader)
  | 0, _, _ => none
  | fuel + 1, first, r =>
    if r.tokens.head? = some .flowMappingEnd then some ([], r.skip)
    else (overComma? first r).bind fun r =>
      if r.tokens.head? = some .flowMappingEnd then some ([], r.skip)
      else (flowPair? child r).bind fun (entry, r) =>
        (flowEntries? child fuel false r).map fun (entries, r) => (entry :: entries, r)

/-- The anchor and the tag in front, in either order. -/
def properties (r : Reader) : Option String × Option (String × String) × Reader :=
  match r.tokens with
  | .anchor a :: .tag h s :: ts => (some a, some (h, s), { r with tokens := ts })
  | .tag h s :: .anchor a :: ts => (some a, some (h, s), { r with tokens := ts })
  | .anchor a :: ts => (some a, none, { r with tokens := ts })
  | .tag h s :: ts => (none, some (h, s), { r with tokens := ts })
  | _ => (none, none, r)

/-- The whole tag of a handle and a suffix. -/
def fullTag? (handles : List (String × String)) : Option (String × String) → Option String
  | none => some ""
  | some (handle, suffix) =>
    if handle.isEmpty then some suffix else (handles.lookup handle).map (· ++ suffix)

/-- Reads a collection that an anchor may stand for. -/
def collection? {α : Type} (make : List α → Node) (anchor? : Option String)
    (read : Reader → Option (List α × Reader)) (r : Reader) : Option (Node × Reader) :=
  (read (r.mark anchor? none)).map fun (members, after) =>
    (make members, after.complete anchor? r.anchors.length (make members))

/-- Reads what a node holds, after its anchor and its tag. -/
def content? (child : Child) (block indentless : Bool) (anchor? : Option String) (tag : String)
    (hasProperties : Bool) (r : Reader) : Option (Node × Reader) :=
  let n := r.bound
  match r.tokens with
  | [] => none
  | .scalar isPlain text :: _ =>
    let node := Node.scalar isPlain tag text
    some (node, r.skip.mark anchor? (some node))
  | t :: _ =>
    if indentless && t == .blockEntry then
      collection? .sequence anchor? (indentlessItems? child n) r
    else if t == .flowSequence then
      collection? .sequence anchor? (flowItems? child n true) r.skip
    else if t == .flowMapping then
      collection? .mapping anchor? (flowEntries? child n true) r.skip
    else if block && t == .blockSequence then
      collection? .sequence anchor? (blockItems? child n) r.skip
    else if block && t == .blockMapping then
      collection? .mapping anchor? (blockEntries? child n) r.skip
    else if hasProperties then
      let node := Node.scalar true tag ""
      some (node, r.mark anchor? (some node))
    else none

/-- Reads a node. `handles` says what the tag handles stand for. -/
def node? (handles : List (String × String)) : (fuel : Nat) → Child
  | 0, _, _, _ => none
  | fuel + 1, block, indentless, r =>
    match r.tokens with
    | .alias name :: _ =>
      (r.anchors.lookup name).map fun target => (.alias name target, r.skip)
    | _ =>
      let (anchor?, tag?, after) := r.properties
      (fullTag? handles tag?).bind fun tag =>
        content? (node? handles fuel) block indentless anchor? tag
          (anchor?.isSome || tag?.isSome) after

/-- What the tag handles stand for that every document has. -/
def standardHandles : List (String × String) := [("!", "!"), ("!!", "tag:yaml.org,2002:")]

/-- Reads the directives in front of a document: the handles that they declare, and the tokens after
them. A second version, another version than 1.1 and a second declaration of a handle are faults. -/
def directives? (hasVersion : Bool) (handles : List (String × String)) :
    List Token → Option (List (String × String) × List Token)
  | .version major minor :: ts =>
    if hasVersion || (major, minor) ≠ (1, 1) then none else directives? true handles ts
  | .handle name value :: ts =>
    if (handles.lookup name).isSome then none
    else directives? hasVersion (handles ++ [(name, value)]) ts
  | ts => some (handles, ts)

/-- Whether a token stands outside of documents. -/
def isBoundary : Token → Bool
  | .streamEnd | .version _ _ | .handle _ _ | .documentStart | .documentEnd => true
  | _ => false

/-- Reads the node of a document, which something must follow. -/
def root? (handles : List (String × String)) (tokens : List Token) : Option Node :=
  let bound := tokens.length + 1
  match node? (handles ++ standardHandles) bound true false ⟨tokens, bound, []⟩ with
  | some (node, r) => if r.tokens.isEmpty then none else some node
  | none => none

end Reader

/-- The root of the first document; an empty node where there is none. -/
def Node.ofTokens? (tokens : List Token) : Option Node :=
  match tokens with
  | [] => none
  | .streamEnd :: _ => some .empty
  | t :: _ =>
    if !Reader.isBoundary t || t == .documentEnd then Reader.root? [] tokens
    else match Reader.directives? false [] tokens with
      | some (handles, .documentStart :: content) =>
        match content with
        | [] => none
        | t :: _ => if Reader.isBoundary t then some .empty else Reader.root? handles content
      | _ => none

end NodeFamily.Yaml
