import NodeFamily.Declaration
import NodeFamily.Emission.SourceFile

/-!
# Generating a file

`generate` goes from declarations to the text of a file, and `generateSchema` from a schema that is
already there. Both check the names as they will be emitted, so that a fault which only title case
brings about is found too.
-/

namespace NodeFamily

/-- How a file is generated. -/
structure Options where
  /-- The package of the file; a fixed one when empty. -/
  package : String := ""
  /-- The import paths. -/
  imports : List String := []
  /-- Whether struct fields are put into title case. -/
  exportFields : Bool := false
  /-- The generator named in the opening comment; a fixed one when empty. -/
  generator : Text.Raw := ""
  /-- Whether to stop at the first fault. -/
  failFast : Bool := false
deriving DecidableEq, Repr

/-- Why no file is generated. -/
inductive Failure
  /-- The schema breaks rules. -/
  | faulty (faults : List Fault)
  /-- The package name is no identifier. -/
  | packageNotIdentifier (name : String)
  /-- There is no schema. -/
  | noSchema
  /-- The package name is empty. -/
  | noPackage
  /-- Some text cannot stand in the file. -/
  | unformattable
deriving DecidableEq, Repr

/-- A failure in words. -/
def Failure.message (w : Wording) : Failure → String
  | .faulty faults => summary w faults
  | .packageNotIdentifier n => "astgen: invalid package name " ++ Text.quote n
  | .noSchema => "gen: nil schema"
  | .noPackage => "gen: empty package name"
  | .unformattable => "gen: format"

/-- The package of a file when nobody gives another. -/
def defaultPackage : String := "ast"

/-- The fault of a schema without variants. -/
def noVariants : Fault := ⟨.emptySchema, .schema, none, "", "no variants"⟩

/-- Writes the file of a schema as it is, without checking its names. -/
def renderFile (package : String) (generator : Text.Raw) (imports : List String)
    (exportFields : Bool) (schema? : Option Schema) : Except Failure String :=
  match schema? with
  | none => .error .noSchema
  | some schema =>
    if package = "" then .error .noPackage
    else match (Emission.SourceFile.mk package generator imports exportFields schema).render? with
      | some text => .ok text
      | none => .error .unformattable

/-- Checks a schema and writes its file. The marks of its fields are set anew. -/
def generateSchema (o : Options) (schema? : Option Schema) : Except Failure String :=
  match schema? with
  | none => .error (.faulty [noVariants])
  | some schema =>
    if schema.variants.isEmpty then .error (.faulty [noVariants])
    else
      let faults := schema.check o.exportFields o.failFast
      if !faults.isEmpty then .error (.faulty faults)
      else
        let package := if o.package = "" then defaultPackage else o.package
        if !isIdentifier package then .error (.packageNotIdentifier package)
        else renderFile package o.generator o.imports o.exportFields (some schema.classify)

/-- Reads declarations and writes their file. -/
def generate (o : Options) (decls : List String) : Except Failure String :=
  match parse o.failFast decls with
  | .error faults => .error (.faulty faults)
  | .ok schema => generateSchema o (some schema)

end NodeFamily
