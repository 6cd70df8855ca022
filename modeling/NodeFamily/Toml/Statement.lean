import NodeFamily.Toml.Scalar

/-!
# TOML statements

A document is a list of statements, each on lines of its own: headers of tables and assignments.
`Statement.readAll?` reads them; what they mean together is the matter of the tables they build.
-/

namespace NodeFamily.Toml

/-- A value as an assignment writes it. -/
inductive Value
  | text (s : String)
  | boolean (b : Bool)
  /-- A number or a date. -/
  | other
  | list (items : List Value)
  /-- An inline table: its dotted keys with their values. -/
  | table (entries : List (List String × Value))
deriving Repr

/-- A statement of a document. -/
inductive Statement
  /-- The header of a table. -/
  | table (key : List String)
  /-- The header of one more table in a list of tables. -/
  | nextTable (key : List String)
  /-- The assignment of a value to a dotted key. -/
  | assign (key : List String) (value : Value)
deriving Repr

/-- Whether a character may stand in a bare key. -/
def isBareKeyPart (c : Char) : Bool :=
  ('a' ≤ c && c ≤ 'z') || ('A' ≤ c && c ≤ 'Z') || c.isDigit || c == '_' || c == '-'

/-- Reads one part of a dotted key. -/
def readKeyPart? (fuel : Nat) (cs : List Char) : Option (String × List Char) :=
  match cs.dropWhile isBlank with
  | '"' :: rest => (readBasic? fuel rest).map fun (k, rest) => (String.ofList k, rest)
  | '\'' :: rest => (readLiteral? rest).map fun (k, rest) => (String.ofList k, rest)
  | cs =>
    let k := cs.takeWhile isBareKeyPart
    if k.isEmpty then none else some (String.ofList k, cs.drop k.length)

/-- Reads a dotted key and the character `closing` after it. -/
def readKey? (closing : Char) : (fuel : Nat) → List Char → Option (List String × List Char)
  | 0, _ => none
  | fuel + 1, cs =>
    match readKeyPart? (fuel + 1) cs with
    | none => none
    | some (part, rest) =>
      match rest.dropWhile isBlank with
      | '.' :: rest => (readKey? closing fuel rest).map fun (parts, rest) => (part :: parts, rest)
      | c :: rest => if c = closing then some ([part], rest) else none
      | [] => none

/-- What follows a comment up to the end of its line. -/
def afterComment (cs : List Char) : List Char := cs.dropWhile fun c => !isLineEnd c

/-- Passes over blanks, line ends and comments. -/
def skipFiller : (fuel : Nat) → List Char → List Char
  | 0, cs => cs
  | fuel + 1, cs =>
    match cs.dropWhile fun c => isBlank c || isLineEnd c with
    | '#' :: rest => skipFiller fuel (afterComment rest)
    | cs => cs

/-- Reads a truth value. -/
def readWord? (cs : List Char) : Option (Value × List Char) :=
  let word := cs.takeWhile Text.isLetter
  let rest := cs.drop word.length
  if word = "true".toList then some (.boolean true, rest)
  else if word = "false".toList then some (.boolean false, rest)
  else none

mutual

/-- Reads a value. -/
def readValue? : (fuel : Nat) → List Char → Option (Value × List Char)
  | 0, _ => none
  | fuel + 1, cs =>
    match cs.dropWhile isBlank with
    | '[' :: rest => (readItems? fuel rest).map fun (items, rest) => (.list items, rest)
    | '\x7b' :: rest =>
      match rest.dropWhile isBlank with
      | '\x7d' :: rest => some (.table [], rest)
      | _ => (readEntries? fuel rest).map fun (entries, rest) => (.table entries, rest)
    | '"' :: '"' :: '"' :: rest =>
      (readBasicLines? (fuel + 1) 5 (dropFirstLineEnd rest)).map fun (s, rest) =>
        (.text (String.ofList s), rest)
    | '"' :: rest =>
      (readBasic? (fuel + 1) rest).map fun (s, rest) => (.text (String.ofList s), rest)
    | '\'' :: '\'' :: '\'' :: rest =>
      (readLiteralLines? (dropFirstLineEnd rest)).map fun (s, rest) =>
        (.text (String.ofList s), rest)
    | '\'' :: rest => (readLiteral? rest).map fun (s, rest) => (.text (String.ofList s), rest)
    | cs =>
      (readWord? cs).orElse fun _ => (skipNumber? cs).map fun rest => (.other, rest)

/-- Reads the items of a list and its closing bracket. -/
def readItems? : (fuel : Nat) → List Char → Option (List Value × List Char)
  | 0, _ => none
  | fuel + 1, cs =>
    match skipFiller (fuel + 1) cs with
    | ']' :: rest => some ([], rest)
    | cs =>
      match readValue? fuel cs with
      | none => none
      | some (item, rest) =>
        match skipFiller (fuel + 1) rest with
        | ',' :: rest => (readItems? fuel rest).map fun (items, rest) => (item :: items, rest)
        | ']' :: rest => some ([item], rest)
        | _ => none

/-- Reads the entries of an inline table and its closing brace. -/
def readEntries? : (fuel : Nat) → List Char → Option (List (List String × Value) × List Char)
  | 0, _ => none
  | fuel + 1, cs =>
    match readKey? '=' (fuel + 1) cs with
    | none => none
    | some (key, rest) =>
      match readValue? fuel rest with
      | none => none
      | some (value, rest) =>
        match rest.dropWhile isBlank with
        | ',' :: rest =>
          (readEntries? fuel rest).map fun (entries, rest) => ((key, value) :: entries, rest)
        | '\x7d' :: rest => some ([(key, value)], rest)
        | _ => none

end

/-- Reads a statement. -/
def Statement.read? (fuel : Nat) (cs : List Char) : Option (Statement × List Char) :=
  match cs with
  | '[' :: '[' :: rest =>
    match readKey? ']' fuel rest with
    | some (key, ']' :: rest) => some (.nextTable key, rest)
    | _ => none
  | '[' :: rest => (readKey? ']' fuel rest).map fun (key, rest) => (.table key, rest)
  | _ =>
    match readKey? '=' fuel cs with
    | none => none
    | some (key, rest) =>
      (readValue? (2 * fuel) rest).map fun (value, rest) => (.assign key value, rest)

/-- What follows the line of a statement, which may end in blanks and a comment. -/
def afterStatement? (cs : List Char) : Option (List Char) :=
  match cs.dropWhile isBlank with
  | [] => some []
  | '#' :: rest => some (afterComment rest)
  | c :: rest => if isLineEnd c then some rest else none

/-- Reads all statements. -/
def Statement.readFrom? : (fuel : Nat) → List Char → Option (List Statement)
  | 0, _ => none
  | fuel + 1, cs =>
    match skipFiller (fuel + 1) cs with
    | [] => some []
    | cs =>
      match Statement.read? (fuel + 1) cs with
      | none => none
      | some (s, rest) =>
        match afterStatement? rest with
        | none => none
        | some rest => (Statement.readFrom? fuel rest).map (s :: ·)

/-- The statements of a document; nothing when it is malformed. A byte-order mark at the front does
not count. -/
def Statement.readAll? (content : String) : Option (List Statement) :=
  let cs := match content.toList with
    | '\ufeff' :: rest => rest
    | cs => cs
  if isPlainText cs then Statement.readFrom? (cs.length + 1) cs else none

end NodeFamily.Toml
