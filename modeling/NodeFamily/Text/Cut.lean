/-!
# Cutting a text at a character

`cutAt` divides a text at every occurrence of a character and drops it. There is always one more
piece than there are occurrences, so the empty text has one empty piece. `cutAfter` keeps the
character at the end of its piece, so that the pieces follow one another to the text.
-/

namespace NodeFamily.Text

/-- The pieces of `cs` between the characters `sep`. -/
def cutAt (sep : Char) : List Char → List (List Char)
  | [] => [[]]
  | c :: rest =>
    if c = sep then [] :: cutAt sep rest
    else match cutAt sep rest with
      | [] => [[c]]
      | piece :: pieces => (c :: piece) :: pieces

/-- The pieces of `cs` that end after a character `sep`, and the rest if it is not empty. -/
def cutAfter (sep : Char) : List Char → List (List Char)
  | [] => []
  | c :: rest =>
    if c = sep then [c] :: cutAfter sep rest
    else match cutAfter sep rest with
      | [] => [[c]]
      | piece :: pieces => (c :: piece) :: pieces

/-- There is always a piece. -/
theorem cutAt_ne_nil (sep : Char) (cs : List Char) : cutAt sep cs ≠ [] := by
  fun_induction cutAt sep cs <;> simp

/-- The pieces that keep their separator follow one another to the text. -/
@[simp]
theorem flatten_cutAfter (sep : Char) (cs : List Char) : (cutAfter sep cs).flatten = cs := by
  fun_induction cutAfter sep cs <;> simp_all

/-- The lines of a text, each with the line feed that ends it. -/
def linesWithEnds (s : String) : List String := (cutAfter '\n' s.toList).map String.ofList

end NodeFamily.Text
