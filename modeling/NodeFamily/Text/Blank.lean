import NodeFamily.Text.CodeSet

/-!
# White space

Three notions of white space. `isBlank` is the Unicode property White_Space, by which texts are
trimmed and cut into words. `isSpacing` is the narrow one of the declaration grammar, where only
five ASCII characters separate tokens: a vertical tab or a no-break space is not one of them.
`isGap` is that of emitted source inside one line.
-/

namespace NodeFamily.Text

/-- The code points with the property White_Space. -/
def blanks : CodeSet := ⟨[
  (0x9, 0xD), (0x20, 0x20), (0x85, 0x85), (0xA0, 0xA0), (0x1680, 0x1680), (0x2000, 0x200A),
  (0x2028, 0x2029), (0x202F, 0x202F), (0x205F, 0x205F), (0x3000, 0x3000)]⟩

/-- Whether a character is white space of any kind. -/
def isBlank (c : Char) : Bool := blanks.contains c

/-- Whether a character separates the tokens of a declaration: tab, line feed, form feed, carriage
return or space. -/
def isSpacing (c : Char) : Bool :=
  c == '\t' || c == '\n' || c == '\x0c' || c == '\r' || c == ' '

/-- Whether a character separates tokens on one line of emitted source: space, tab or carriage
return. -/
def isGap (c : Char) : Bool := c == ' ' || c == '\t' || c == '\r'

/-- Drops the characters that satisfy `p` from the end. -/
def dropEndWhile (p : Char → Bool) (cs : List Char) : List Char :=
  (cs.reverse.dropWhile p).reverse

/-- Drops white space from both ends. -/
def trimChars (cs : List Char) : List Char := dropEndWhile isBlank (cs.dropWhile isBlank)

/-- A text without white space at its ends. -/
def trim (s : String) : String := String.ofList (trimChars s.toList)

/-- The maximal runs of characters that are not white space; `run` is the run being read,
backwards. -/
def wordsFrom (run : List Char) : List Char → List (List Char)
  | [] => if run.isEmpty then [] else [run.reverse]
  | c :: rest =>
    if isBlank c then
      if run.isEmpty then wordsFrom [] rest else run.reverse :: wordsFrom [] rest
    else wordsFrom (c :: run) rest

/-- The words of a text, as white space divides them. -/
def words (s : String) : List String := (wordsFrom [] s.toList).map String.ofList

end NodeFamily.Text
