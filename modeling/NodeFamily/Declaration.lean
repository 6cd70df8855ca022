import NodeFamily.Fault
import NodeFamily.NameRule
import NodeFamily.Token

/-!
# Declarations

A declaration `Name : Type field, Type field` names a variant and its fields. `parse` reads a list
of declarations into a schema, all or nothing.

Reading goes in two rounds. The first one reads one declaration after another, and looks up the
names of those before it. Whether a leaf type names a variant is checked after all declarations are
read (`Progress.checkLeaves`), since a variant may be declared after its use. Without `failFast`
every fault is reported, declaration by declaration; with it the first one that is found ends the
reading, so that a fault of the first round goes before those of the second.
-/

namespace NodeFamily

/-- The text between two separators, as tokens. -/
structure Segment where
  /-- The colon or comma before it. -/
  separator : Token
  /-- Its tokens, spacing included. -/
  tokens : List Token
deriving DecidableEq, Repr

namespace Segment

/-- The segments of the tokens after `separator`; `run` holds those read so far of the first one,
backwards. -/
def cutFrom (separator : Token) (run : List Token) : List Token → List Segment
  | [] => [⟨separator, run.reverse⟩]
  | t :: rest =>
    if t.kind = .comma then ⟨separator, run.reverse⟩ :: cutFrom t [] rest
    else cutFrom separator (t :: run) rest

/-- The segment as it is written, without white space at its ends. -/
def text (s : Segment) : String := Text.trim (Token.concat s.tokens)

/-- The column of the first token, or the one after the separator when there is none. -/
def column (s : Segment) : Nat :=
  match Token.significant s.tokens with
  | [] => s.separator.position.column + 1
  | t :: _ => t.position.column

end Segment

/-- A declaration cut at its colon and commas. -/
structure Declaration where
  /-- The declaration as it is written, without white space at its ends. -/
  text : String
  /-- The tokens before the first colon that are not spacing, the colon, and the segments after it;
  nothing when there is no colon. -/
  parts? : Option (List Token × Token × List Segment)
deriving DecidableEq, Repr

/-- The position of an accepted leaf field, kept until all variants are known. -/
structure LeafUse where
  /-- The field. -/
  place : Place
  /-- The column of the type. -/
  column : Nat
  /-- The segment as it is written. -/
  text : String
  /-- The type. -/
  type : String
deriving DecidableEq, Repr

/-- A field segment that passed all checks on its own. -/
structure FieldReading where
  /-- The field. -/
  field : Field
  /-- Its use of a leaf type, if it is a leaf. -/
  leaf? : Option LeafUse
deriving DecidableEq, Repr

/-- Reads a segment of two words, where `earlier` holds the names of the fields accepted so far. -/
def readField (place : Place) (variant : String) (earlier : List String) (text : String)
    (type name : Token) : Except Fault FieldReading :=
  match typeProblem? (fun _ => false) type.text with
  | some p => .error ⟨.invalidName, place, some type.position.column, text, p.text⟩
  | none =>
    match fieldProblem? name.text name.text variant with
    | some p => .error ⟨.invalidName, place, some name.position.column, text, p.text⟩
    | none =>
      if earlier.contains name.text then
        .error ⟨.duplicateField, place, some name.position.column, text,
          "field " ++ Text.quote name.text ++ " declared twice in " ++ variant⟩
      else
        .ok {
          field := { type := type.text, name := name.text }
          leaf? :=
            if type.text = nodeName then none
            else some ⟨place, type.position.column, text, type.text⟩ }

/-- The fault of a segment that is not two words. -/
def Segment.malformed (place : Place) (s : Segment) : Fault :=
  ⟨.malformedField, place, some s.column, s.text,
    "expected \"Type name\", got " ++ Text.quote s.text⟩

/-- Reads a segment, which has to be a type and a name. -/
def Segment.read (place : Place) (variant : String) (earlier : List String) (s : Segment) :
    Except Fault FieldReading :=
  match Token.significant s.tokens with
  | [type, name] =>
    if type.kind = .word ∧ name.kind = .word then
      readField place variant earlier s.text type name
    else .error (s.malformed place)
  | _ => .error (s.malformed place)

namespace Declaration

/-- Cuts a declaration at its separators. -/
def ofString (s : String) : Declaration :=
  let tokens := Token.lex s
  { text := Text.trim s
    parts? :=
      match tokens.dropWhile (·.kind ≠ .colon) with
      | [] => none
      | colon :: rest =>
        some (Token.significant (tokens.takeWhile (·.kind ≠ .colon)), colon,
          Segment.cutFrom colon [] rest) }

/-- The fault of declaration `i` when it has no colon. -/
def missingSeparator (i : Nat) (d : Declaration) : Fault :=
  ⟨.missingSeparator, .declaration i, none, d.text,
    "expected \"Name : Type field, ...\" in " ++ Text.quote d.text⟩

/-- The name in a header that is a single legal variant name. -/
def name? (d : Declaration) : Option String :=
  match d.parts? with
  | some ([t], _, _) =>
    if t.kind = .word ∧ (variantProblem? t.text).isNone then some t.text else none
  | _ => none

/-- The fault of a header, of which `t` is the first token, that is not one word. -/
def notSingle (i : Nat) (d : Declaration) (head : List Token) (t : Token) : Fault :=
  ⟨.invalidName, .declaration i, some t.position.column, d.text,
    "variant name must be a single identifier, got " ++
      Text.quote (" ".intercalate (head.map (·.text)))⟩

/-- What is wrong with the header of declaration `i`, where `names` are the legal header names of
the declarations before it in order, and any that follow. -/
def headerFault? (names : List (Option String)) (i : Nat) (d : Declaration) (head : List Token)
    (colon : Token) : Option Fault :=
  match head with
  | [] =>
    some ⟨.invalidName, .declaration i, some colon.position.column, d.text,
      "missing variant name before ':'"⟩
  | [t] =>
    if t.kind ≠ .word then some (notSingle i d head t)
    else match variantProblem? t.text with
      | some p => some ⟨.invalidName, .declaration i, some t.position.column, d.text, p.text⟩
      | none =>
        let first := names.idxOf (some t.text)
        if first < i then
          some ⟨.duplicateVariant, .declaration i, some t.position.column, d.text,
            Text.quote t.text ++ " already declared at /" ++ toString first⟩
        else none
  | t :: _ => some (notSingle i d head t)

end Declaration

/-- The fault of a leaf type that names a variant. -/
def LeafUse.fault? (isVariant : String → Bool) (l : LeafUse) : Option Fault :=
  (typeProblem? isVariant l.type).map fun p =>
    ⟨.invalidName, l.place, some l.column, l.text, p.text⟩

/-- The fault of having no declarations. -/
def noDeclarations : Fault := ⟨.emptySchema, .schema, none, "", "no declarations"⟩

/-- What reading declarations has come to. -/
structure Progress where
  /-- The legal header names of the declarations so far, in order. -/
  names : List (Option String) := []
  /-- The variants of the declarations so far, without those at fault. -/
  variants : List Variant := []
  /-- The faults in the order in which they were found. -/
  found : List Fault := []
  /-- The uses of leaf types in the fields accepted so far. -/
  leaves : List LeafUse := []
deriving DecidableEq, Repr

namespace Progress

/-- Adds a fault. -/
def report (p : Progress) (f : Fault) : Progress := { p with found := p.found ++ [f] }

/-- Adds a fault, if there is one. -/
def reportAny (p : Progress) (f? : Option Fault) : Progress := f?.elim p p.report

end Progress

/-- What reading the segments of a declaration has come to. -/
structure FieldProgress where
  /-- The names of the fields accepted so far, the last one first. -/
  earlier : List String := []
  /-- The fields; nothing once a segment was at fault. -/
  fields? : Option (List Field) := some []
  /-- What reading has come to besides. -/
  progress : Progress
deriving DecidableEq, Repr

namespace FieldProgress

/-- Adds a segment that is at fault. -/
def refuse (p : FieldProgress) (f : Fault) : FieldProgress :=
  { p with fields? := none, progress := p.progress.report f }

/-- Adds a segment that is a field. -/
def accept (p : FieldProgress) (r : FieldReading) : FieldProgress :=
  { earlier := r.field.name :: p.earlier
    fields? := p.fields?.map (· ++ [r.field])
    progress := { p.progress with leaves := p.progress.leaves ++ r.leaf?.toList } }

/-- Reads one more segment of declaration `i`, given with its index. -/
def add (i : Nat) (variant : String) (p : FieldProgress) (item : Segment × Nat) : FieldProgress :=
  match item.1.read (.field i item.2) variant p.earlier with
  | .error f => p.refuse f
  | .ok r => p.accept r

end FieldProgress

namespace Progress

/-- Reads the fields of declaration `i`, whose header has the fault `header?`. -/
def readFields (failFast : Bool) (p : Progress) (i : Nat) (variant : String)
    (header? : Option Fault) (segments : List Segment) : Progress :=
  let read := inTurn failFast (·.progress.found) (FieldProgress.add i variant) { progress := p }
    segments.zipIdx
  match header?, read.fields? with
  | none, some fields =>
    { read.progress with variants := read.progress.variants ++ [⟨variant, fields⟩] }
  | _, _ => read.progress

/-- Reads one more declaration, given with its index. After a fault of its header, `failFast` leaves
its fields unread. -/
def add (failFast : Bool) (p : Progress) (item : Declaration × Nat) : Progress :=
  let (d, i) := item
  let named := { p with names := p.names ++ [d.name?] }
  match d.parts? with
  | none => named.report (d.missingSeparator i)
  | some (head, colon, segments) =>
    let header? := d.headerFault? p.names i head colon
    let named := named.reportAny header?
    if stops failFast named.found then named
    else named.readFields failFast i (d.name?.getD "") header? segments

/-- Checks the type of one more leaf. -/
def addLeaf (p : Progress) (l : LeafUse) : Progress :=
  p.reportAny (l.fault? fun n => p.names.contains (some n))

/-- The first round over declarations. -/
def readAll (failFast : Bool) (ds : List Declaration) : Progress :=
  inTurn failFast (·.found) (add failFast) {} ds.zipIdx

/-- The second round over declarations, which are all read. -/
def checkLeaves (failFast : Bool) (p : Progress) : Progress :=
  inTurn failFast (·.found) addLeaf p p.leaves

/-- Both rounds over declarations. With `failFast` the first fault ends them. -/
def ofDeclarations (failFast : Bool) (ds : List Declaration) : Progress :=
  let p := readAll failFast ds
  if stops failFast p.found then p else p.checkLeaves failFast

end Progress

/-- Whether the declaration of a fault comes no later than that of another one. -/
def Fault.isNoLater (f g : Fault) : Bool :=
  match f.place.decl?, g.place.decl? with
  | none, _ => true
  | some _, none => false
  | some i, some j => i ≤ j

/-- Reads declarations into a schema, or reports their faults, declaration by declaration. -/
def parse (failFast : Bool) (decls : List String) : Except (List Fault) Schema :=
  if decls.isEmpty then .error [noDeclarations]
  else
    let p := Progress.ofDeclarations failFast (decls.map Declaration.ofString)
    if p.found.isEmpty then .ok (Schema.classify ⟨p.variants⟩)
    else .error (p.found.mergeSort Fault.isNoLater)

end NodeFamily
