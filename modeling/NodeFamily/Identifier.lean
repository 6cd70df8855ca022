import NodeFamily.Text.Letter
import NodeFamily.Text.Numeral

/-!
# Identifiers

An identifier of the emitted language, which is Go: letters, decimal digits and underscores, not
starting with a digit, and not one of the language's keywords. The lone underscore is an identifier
that names nothing, so `isName` leaves it out.
-/

namespace NodeFamily

/-- The words that are not identifiers because the language uses them itself. -/
def keywords : List String :=
  ["break", "case", "chan", "const", "continue", "default", "defer", "else", "fallthrough", "for",
    "func", "go", "goto", "if", "import", "interface", "map", "package", "range", "return",
    "select", "struct", "switch", "type", "var"]

/-- Whether a character may open an identifier. -/
def opensIdentifier (c : Char) : Bool := Text.isLetter c || c == '_'

/-- Whether a character may follow the first one of an identifier. -/
def continuesIdentifier (c : Char) : Bool := opensIdentifier c || Text.isDigit c

/-- Whether the characters have the shape of an identifier, keywords included. -/
def hasIdentifierShape : List Char → Bool
  | [] => false
  | c :: rest => opensIdentifier c && rest.all continuesIdentifier

/-- Whether a text is an identifier. -/
def isIdentifier (s : String) : Bool := hasIdentifierShape s.toList && !keywords.contains s

/-- Whether a text is an identifier that can name something. -/
def isName (s : String) : Bool := isIdentifier s && s != "_"

end NodeFamily
