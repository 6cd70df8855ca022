import NodeFamily.Fault
import NodeFamily.NameRule
import NodeFamily.Text.Blank
import NodeFamily.Text.Titlecase

/-!
# Checking a schema

A schema that nobody parsed may break any rule for names, and a parsed one may break them once its
field names are put into title case. `Schema.check` checks both against the identifiers as they
will be emitted. All variants are checked before any field.
-/

namespace NodeFamily

/-- The identifier under which a struct field is emitted. -/
def fieldIdent (exported : Bool) (name : String) : String :=
  if exported then Text.titleWords name else name

namespace Schema

/-- What is wrong with the name of variant `i`. -/
def variantFault? (s : Schema) (i : Nat) (v : Variant) : Option Fault :=
  match variantProblem? v.name with
  | some p => some ⟨.invalidName, .declaration i, none, v.name, p.text⟩
  | none =>
    let first := s.names.idxOf v.name
    if first < i then
      some ⟨.duplicateVariant, .declaration i, none, v.name,
        Text.quote v.name ++ " already declared at /" ++ toString first⟩
    else none

/-- Whether a text is the legal name of a variant. -/
def isVariant (s : Schema) (n : String) : Bool :=
  s.names.contains n && (variantProblem? n).isNone

end Schema

/-- What is wrong with a field that is emitted as `ident`, where `earlier` pairs the identifiers
emitted so far with the names of their fields. -/
def fieldFault? (isVariant : String → Bool) (place : Place) (variant : String)
    (earlier : List (String × String)) (ident : String) (f : Field) : Option Fault :=
  let text := Text.trim (f.type ++ " " ++ f.name)
  match typeProblem? isVariant f.type with
  | some p => some ⟨.invalidName, place, none, text, p.text⟩
  | none =>
    match fieldProblem? f.name ident variant with
    | some p => some ⟨.invalidName, place, none, text, p.text⟩
    | none =>
      match earlier.lookup ident with
      | some other =>
        some ⟨.duplicateField, place, none, text,
          "fields " ++ Text.quote other ++ " and " ++ Text.quote f.name ++
            " are both emitted as " ++ ident⟩
      | none => none

/-- What checking the fields of a variant has come to. -/
structure FieldCheck where
  /-- The identifiers emitted so far with the names of their fields. -/
  idents : List (String × String) := []
  /-- The faults found so far, those of earlier variants included. -/
  found : List Fault
deriving DecidableEq, Repr

/-- Checks one more field of variant `i`, given with its index. -/
def FieldCheck.add (isVariant : String → Bool) (ident : String → String) (i : Nat)
    (variant : String) (c : FieldCheck) (item : Field × Nat) : FieldCheck :=
  match fieldFault? isVariant (.field i item.2) variant c.idents (ident item.1.name) item.1 with
  | some fault => { c with found := c.found ++ [fault] }
  | none => { c with idents := (ident item.1.name, item.1.name) :: c.idents }

namespace Schema

/-- Checks the names of the variants. -/
def checkVariants (s : Schema) (failFast : Bool) : List Fault :=
  inTurn failFast id (fun found item => found ++ (s.variantFault? item.2 item.1).toList) []
    s.variants.zipIdx

/-- Checks the fields of one more variant, given with its index. -/
def checkVariantFields (s : Schema) (ident : String → String) (failFast : Bool)
    (found : List Fault) (item : Variant × Nat) : List Fault :=
  (inTurn failFast FieldCheck.found (FieldCheck.add s.isVariant ident item.2 item.1.name)
    { found } item.1.fields.zipIdx).found

/-- Checks the fields of all variants, where some faults have been found before. -/
def checkFields (s : Schema) (ident : String → String) (failFast : Bool) (found : List Fault) :
    List Fault :=
  inTurn failFast id (s.checkVariantFields ident failFast) found s.variants.zipIdx

/-- The faults that a check of a schema reports, where `ident` gives the identifier under which a
field name is emitted. With `failFast` the first fault ends it. -/
def checkAs (s : Schema) (ident : String → String) (failFast : Bool) : List Fault :=
  let found := s.checkVariants failFast
  if stops failFast found then found else s.checkFields ident failFast found

/-- The faults that a check of a schema reports whose fields are emitted in title case when
`exported`. -/
def check (s : Schema) (exported failFast : Bool) : List Fault :=
  s.checkAs (fieldIdent exported) failFast

/-- All faults of a schema. -/
def faults (s : Schema) (exported : Bool) : List Fault := s.check exported false

end Schema

end NodeFamily
