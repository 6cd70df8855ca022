import NodeFamily.Difference.LineTable
import NodeFamily.Difference.Search

/-!
# Reporting a difference between texts

`report` shows how a file differs from what it should be, line by line: a minus before each line of
the file that is not wanted and a plus before each wanted line that it lacks. Lines in common are
not shown. A line is compared with the line feed that ends it, so a file that lacks only its last
line feed differs in that line. Between very long texts the comparison may break off
(`reportOrFail`), and then nothing is shown.
-/

namespace NodeFamily.Difference

/-- A line without the line feed that ends it. -/
def withoutEnd (line : String) : String :=
  match line.toList.reverse with
  | '\n' :: rest => String.ofList rest.reverse
  | _ => line

/-- The mark before the lines of a run, which a kept run does not have. -/
def Action.mark? : Action → Option String
  | .keep => none
  | .delete => some "-"
  | .insert => some "+"

/-- The lines that show a run. -/
def Edit.shown (e : Edit String) : List String :=
  match e.action.mark? with
  | none => []
  | some mark => e.items.map fun line => mark ++ withoutEnd line ++ "\n"

/-- The edit script from one text to another, by lines. -/
def lineScript (actual want : String) : Except OutOfRange (List (Edit String)) :=
  let (before, t) := LineTable.numberAll {} (Text.linesWithEnds actual)
  let (after, t) := t.numberAll (Text.linesWithEnds want)
  (compare (before.map LineTable.char) (after.map LineTable.char)).mapM t.restore

/-- The difference between the file `name` that holds `actual` and the wanted text, unless the
comparison breaks off. -/
def reportOrFail (name actual want : String) : Except OutOfRange String :=
  (lineScript actual want).map fun script =>
    "--- " ++ name ++ "\n+++ " ++ name ++ " (regenerated)\n" ++
      String.join (script.flatMap Edit.shown)

/-- What is shown of the difference between the file `name` that holds `actual` and the wanted
text. -/
def report (name actual want : String) : String :=
  (reportOrFail name actual want).toOption.getD ""

end NodeFamily.Difference
