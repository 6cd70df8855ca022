import NodeFamily.Text.Quoted

/-!
# The preamble of an emitted file

The comment that names the generator, the package clause and the import block. The import block
depends only on the set of non-empty paths: `importPaths` is sorted and has no repetition.
-/

namespace NodeFamily.Emission

/-- What the comment that opens the file begins with. -/
def headerStart : String := "// Code generated by "

/-- What the comment that opens the file ends with. -/
def headerEnd : String := ". DO NOT EDIT."

/-- The comment that opens the file. -/
def headerText (generator : String) : String := headerStart ++ generator ++ headerEnd

/-- The package clause. -/
def packageBlock (package : String) : List String := ["package " ++ package]

/-- Puts a path into a sorted list of paths, unless it is there. -/
def insertPath (p : String) : List String → List String
  | [] => [p]
  | q :: rest =>
    if p < q then p :: q :: rest else if p = q then q :: rest else q :: insertPath p rest

/-- The non-empty paths in ascending order, each once. -/
def importPaths (imports : List String) : List String :=
  (imports.filter (· ≠ "")).foldr insertPath []

/-- The non-empty paths in the order in which they come first, each once. -/
def draftPaths (imports : List String) : List String := (imports.filter (· ≠ "")).eraseDups

/-- The import block of paths, which is left out when there is nothing to import. -/
def importBlock (paths : List String) : List (List String) :=
  match paths with
  | [] => []
  | paths => [["import ("] ++ paths.map (fun p => "\t" ++ Text.quote p) ++ [")"]]

end NodeFamily.Emission
