import NodeFamily.SchemaFile.Basic

/-!
# Schema files of one declaration per line

Every line is a declaration, except that blank lines and lines that begin with `#` or `//` are left
out. The number of its line is kept with each declaration. A line of `lineLimit` bytes or more makes
the file unreadable, whether or not it would be left out.
-/

namespace NodeFamily.SchemaFile

/-- The least number of bytes that a line may not have. -/
def lineLimit : Nat := 65536

/-- The number of bytes of a line. -/
def byteLength (cs : List Char) : Nat := cs.foldl (fun n c => n + c.utf8Size) 0

/-- Whether a trimmed line is a declaration. -/
def isDeclarationLine : List Char → Bool
  | [] => false
  | '#' :: _ => false
  | '/' :: '/' :: _ => false
  | _ => true

/-- The declarations among the lines from number `n` on, with the numbers of their lines. -/
def numberedLines (n : Nat) : List (List Char) → List (Nat × String)
  | [] => []
  | line :: rest =>
    let trimmed := Text.trimChars line
    if isDeclarationLine trimmed then (n, String.ofList trimmed) :: numberedLines (n + 1) rest
    else numberedLines (n + 1) rest

/-- Reads a file of one declaration per line; nothing when a line is too long. -/
def ofLines? (content : String) : Option SchemaFile :=
  let lines := Text.cutAt '\n' content.toList
  if lines.any fun line => lineLimit ≤ byteLength line then none
  else
    let found := numberedLines 1 lines
    some { variants := found.map (·.2), lines := found.map (·.1) }

end NodeFamily.SchemaFile
