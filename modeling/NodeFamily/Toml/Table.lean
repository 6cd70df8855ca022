import NodeFamily.Toml.Statement

/-!
# TOML tables

What the statements of a document build together. A key may be defined once, with two exceptions: a
table that was only implied by a longer key may be defined later, and a key that holds a list, or is
given one, may be given a value again. `build?` fails at the first statement that breaks this.
-/

namespace NodeFamily.Toml

/-- What a key holds. -/
inductive Node
  /-- A value that is not a table. -/
  | leaf (value : Value)
  | table (members : List (String × Node))
  /-- A list of tables. -/
  | tables (elements : List (List (String × Node)))

/-- The members of a table. -/
abbrev Members := List (String × Node)

/-- The document as it has been built so far. -/
structure Document where
  /-- The members of the whole document. -/
  root : Members := []
  /-- The keys of tables that were only implied. -/
  implied : List (List String) := []
  /-- The keys that hold lists or are being given one. -/
  lists : List (List String) := []

/-- Replaces the value of a key, or adds it at the end. -/
def put (key : String) (node : Node) : Members → Members
  | [] => [(key, node)]
  | (k, n) :: rest => if k = key then (k, node) :: rest else (k, n) :: put key node rest

/-- Changes the table at the end of a path by `f`. On the way a list of tables stands for its last
one. Nothing when the path does not lead to a table. -/
def updateAt? (f : Members → Option Members) : List String → Members → Option Members
  | [], members => f members
  | k :: path, members =>
    match members.lookup k with
    | some (.table inner) =>
      (updateAt? f path inner).map fun inner => put k (.table inner) members
    | some (.tables elements) =>
      match elements.getLast? with
      | some last =>
        (updateAt? f path last).map fun last =>
          put k (.tables (elements.dropLast ++ [last])) members
      | none => none
    | _ => none

namespace Document

/-- Marks a key as implied. -/
def imply (d : Document) (path : List String) : Document := { d with implied := path :: d.implied }

/-- Marks a key as not implied. -/
def affirm (d : Document) (path : List String) : Document :=
  { d with implied := d.implied.filter (· ≠ path) }

/-- The key that a record of its kind goes to. An empty key in a table stands for the table. -/
def kindPath (context : List String) (key : String) : List String :=
  if key ≠ "" ∨ context = [] then context ++ [key] else context

/-- Records whether a key holds a list. -/
def setList (d : Document) (path : List String) (isList : Bool) : Document :=
  { d with
    lists := if isList then path :: d.lists else d.lists.filter (· ≠ path) }

/-- The value at the end of a path. -/
def find? : List String → Members → Option Node
  | [], _ => none
  | [k], members => members.lookup k
  | k :: path, members =>
    match members.lookup k with
    | some (.table inner) => find? path inner
    | some (.tables elements) => elements.getLast?.bind (find? path)
    | _ => none

/-- Defines the key `key` in the table at `context`. -/
def define? (d : Document) (context : List String) (key : String) (node : Node) :
    Option Document :=
  let path := context ++ [key]
  -- The context has to lead to a table even when the key is already there.
  match updateAt? some context d.root with
  | none => none
  | some _ =>
    match find? path d.root with
    | none => (updateAt? (some ∘ put key node) context d.root).map fun root => { d with root }
    | some _ =>
      if d.lists.contains path then
        (updateAt? (some ∘ put key node) context d.root).map fun root =>
          { d with root }.affirm path
      else if d.implied.contains path then some (d.affirm path)
      else none

/-- Makes sure that every table on the way to the last part of a key is there. -/
def openParents? (d : Document) (context : List String) : List String → Option Document
  | [] => some d
  | [_] => some d
  | k :: rest =>
    let path := context ++ [k]
    match find? path d.root with
    | some (.table _) | some (.tables _) => openParents? d path rest
    | some (.leaf _) => none
    | none =>
      match updateAt? (some ∘ put k (.table [])) context d.root with
      | none => none
      | some root => openParents? ({ d with root }.imply path) path rest

/-- Opens the table of a key. -/
def openTable? (d : Document) (path : List String) : Option Document :=
  match d.openParents? [] path with
  | none => none
  | some d => d.define? path.dropLast (path.getLast?.getD "") (.table [])

/-- Opens one more table in the list of tables of a key. -/
def openNext? (d : Document) (path : List String) : Option Document :=
  match d.openParents? [] path with
  | none => none
  | some d =>
    let key := path.getLast?.getD ""
    let add (members : Members) : Option Members :=
      match members.lookup key with
      | none => some (put key (.tables [[]]) members)
      | some (.tables elements) => some (put key (.tables (elements ++ [[]])) members)
      | some _ => none
    (updateAt? add path.dropLast d.root).map fun root => { d with root }

/-- Opens the tables that the parts of a dotted key before the last one name. -/
def openDotted? (d : Document) (context : List String) :
    List String → Option (Document × List String)
  | [] => some (d, context)
  | [_] => some (d, context)
  | k :: rest =>
    let path := context ++ [k]
    match (d.imply path).openTable? path with
    | none => none
    | some d => openDotted? d path rest

/-- Puts a value at the end of a dotted key, with new tables on the way to it. Nothing when the way
leads through a value that is not a table. -/
def putDotted? (node : Node) : List String → Members → Option Members
  | [], members => some members
  | [k], members => some (put k node members)
  | k :: path, members =>
    match members.lookup k with
    | none => (putDotted? node path []).map fun inner => put k (.table inner) members
    | some (.table inner) =>
      (putDotted? node path inner).map fun inner => put k (.table inner) members
    | some _ => none

mutual

/-- Enters the tables and lists inside a value that is given to a key of the table at `context`. The
answer has what the value is by itself. -/
def enter? (inList : Bool) (context : List String) (key : String) (d : Document) :
    Value → Option (Document × Node)
  | .list items =>
    (enterItems? context key (d.setList (kindPath context key) true) items).map fun d =>
      (d, .leaf (.list items))
  | .table entries =>
    let path := context ++ [key]
    let d := d.imply path
    match (if inList then d.openNext? path else d.openTable? path) with
    | none => none
    | some d => (enterEntries? path d [] entries).map fun (d, own) => (d, .table own)
  | v => some (d, .leaf v)

/-- Enters the items of a list. -/
def enterItems? (context : List String) (key : String) (d : Document) :
    List Value → Option Document
  | [] => some d
  | v :: rest =>
    match enter? true context key d v with
    | none => none
    | some (d, _) => enterItems? context key d rest

/-- Enters the entries of an inline table, of which `own` holds those before. -/
def enterEntries? (path : List String) (d : Document) (own : Members) :
    List (List String × Value) → Option (Document × Members)
  | [] => some (d, own)
  | (key, v) :: rest =>
    match d.openDotted? path key with
    | none => none
    | some (d, context) =>
      let last := key.getLast?.getD ""
      match enter? false context last d v with
      | none => none
      | some (d, node) =>
        match d.define? context last node, putDotted? node key own with
        | some d, some own =>
          enterEntries? path (d.setList (kindPath context last) (isList v)) own rest
        | _, _ => none

/-- Whether a value is a list. -/
def isList : Value → Bool
  | .list _ => true
  | _ => false

end

/-- Gives a value to a dotted key in the table at `context`. -/
def assign? (d : Document) (context key : List String) (v : Value) : Option Document :=
  (enterEntries? context d [] [(key, v)]).map (·.1)

/-- Carries out statements; `context` is the key of the table that the last header opened. -/
def run? (d : Document) (context : List String) : List Statement → Option Document
  | [] => some d
  | .table key :: rest =>
    match d.openTable? key with
    | none => none
    | some d => run? (d.setList key false) key rest
  | .nextTable key :: rest =>
    match d.openNext? key with
    | none => none
    | some d => run? (d.setList key false) key rest
  | .assign key v :: rest =>
    match d.assign? context key v with
    | none => none
    | some d => run? d context rest

end Document

/-- The members of a document; nothing when it is malformed. -/
def build? (content : String) : Option Members :=
  (Statement.readAll? content).bind fun statements =>
    (Document.run? {} [] statements).map (·.root)

end NodeFamily.Toml
