import NodeFamily.SchemaFile.Basic
import NodeFamily.Text.Digit

/-!
# Schema files in JSON

A JSON schema file is an object whose members are the settings, or `null`. Keys are matched without
regard to the case of ASCII letters, and of a repeated key the last one counts. A key need not be
complete so long as it is written with as many octets as the setting has: escapes make it longer
than what they stand for, and one that stands for nothing is passed over. A `null` leaves a
text or a flag as it is and empties a list; inside a list it stands for the item that an earlier
list of the same key had at its place, or for the empty text. The value of any other key is passed
over without being read: a bracketed one ends at the closing bracket of its kind.
-/

namespace NodeFamily.Json

/-- Whether a character may stand between tokens. -/
def isSpace (c : Char) : Bool := c == ' ' || c == '\t' || c == '\n' || c == '\r'

/-- The character of a one-letter escape. -/
def escaped? (c : Char) : Option Char :=
  if c = '"' ∨ c = '\\' ∨ c = '/' then some c
  else if c = 'b' then some '\x08'
  else if c = 'f' then some '\x0c'
  else if c = 'n' then some '\n'
  else if c = 'r' then some '\r'
  else if c = 't' then some '\t'
  else none

/-- Whether a code unit is the first half of a surrogate pair. -/
def isHighSurrogate (n : Nat) : Bool := 0xD800 ≤ n && n < 0xDC00

/-- Whether a code unit is the second half of a surrogate pair. -/
def isLowSurrogate (n : Nat) : Bool := 0xDC00 ≤ n && n < 0xE000

/-- The character of a code unit on its own. Half a surrogate pair is replaced. -/
def unitChar (n : Nat) : Char :=
  if isHighSurrogate n || isLowSurrogate n then '\ufffd' else Char.ofNat n

/-- The characters of a string after its opening quote, and what follows its closing quote. -/
def readString? : List Char → Option (List Char × List Char)
  | '"' :: rest => some ([], rest)
  | '\\' :: 'u' :: a :: b :: c :: d :: '\\' :: 'u' :: e :: f :: g :: h :: rest =>
    match Text.hexNumber? [a, b, c, d], Text.hexNumber? [e, f, g, h] with
    | some high, some low =>
      if isHighSurrogate high && isLowSurrogate low then
        (readString? rest).map fun (cs, rest) =>
          (Char.ofNat (0x10000 + (high - 0xD800) * 0x400 + (low - 0xDC00)) :: cs, rest)
      else
        (readString? ('\\' :: 'u' :: e :: f :: g :: h :: rest)).map fun (cs, rest) =>
          (unitChar high :: cs, rest)
    | _, _ => none
  | '\\' :: 'u' :: a :: b :: c :: d :: rest =>
    match Text.hexNumber? [a, b, c, d] with
    | some n => (readString? rest).map fun (cs, rest) => (unitChar n :: cs, rest)
    | none => none
  | '\\' :: c :: rest =>
    match escaped? c with
    | some e => (readString? rest).map fun (cs, rest) => (e :: cs, rest)
    | none => none
  | '\x00' :: _ => none
  | c :: rest => (readString? rest).map fun (cs, rest) => (c :: cs, rest)
  | [] => none
termination_by cs => cs.length

/-- Passes over a string after its opening quote, whatever its escapes. -/
def skipString? : List Char → Option (List Char)
  | '"' :: rest => some rest
  | '\\' :: c :: rest => if c = '\x00' then none else skipString? rest
  | '\x00' :: _ => none
  | _ :: rest => skipString? rest
  | [] => none

/-- How deep brackets may stand inside one another, the settings' own among them. -/
def nestingLimit : Int := 10000

/-- Passes over a bracketed value up to the bracket that closes it. Only brackets of the one kind
count for that, `more` being how many of them are to be closed before it, and those inside strings
do not. `level` is how deep the brackets of both kinds stand, where any closing one closes any
other. -/
def skipBracketed? (opening closing : Char) : (fuel more : Nat) → (level : Int) → List Char →
    Option (List Char)
  | 0, _, _, _ => none
  | _, _, _, [] => none
  | fuel + 1, more, level, c :: rest =>
    if c = '"' then (skipString? rest).bind (skipBracketed? opening closing fuel more level)
    else if c = '\x00' then none
    else if c = '[' ∨ c = '\x7b' then
      if nestingLimit ≤ level then none
      else
        let more := if c = opening then more + 1 else more
        skipBracketed? opening closing fuel more (level + 1) rest
    else if c = closing then
      if more = 0 then some rest
      else skipBracketed? opening closing fuel (more - 1) (level - 1) rest
    else
      let level := if c = ']' ∨ c = '\x7d' then level - 1 else level
      skipBracketed? opening closing fuel more level rest

/-- Whether a character may stand inside a number. -/
def isNumberPart (c : Char) : Bool :=
  c.isDigit || c == '.' || c == 'e' || c == 'E' || c == '+' || c == '-'

/-- What follows a given word at the front. -/
def afterWord? (word : String) (cs : List Char) : Option (List Char) :=
  if word.toList.isPrefixOf cs then some (cs.drop word.length) else none

/-- Passes over a value. -/
def skipValue? (cs : List Char) : Option (List Char) :=
  match cs.dropWhile isSpace with
  | '\x7b' :: rest => skipBracketed? '\x7b' '\x7d' (rest.length + 1) 0 2 rest
  | '[' :: rest => skipBracketed? '[' ']' (rest.length + 1) 0 2 rest
  | '"' :: rest => skipString? rest
  | c :: rest =>
    if c = '-' || c.isDigit then some (rest.dropWhile isNumberPart)
    else ["true", "false", "null"].findSome? fun w => afterWord? w (c :: rest)
  | [] => none

/-- Reads a text value; `none` inside the answer is `null`. -/
def readText? (cs : List Char) : Option (Option String × List Char) :=
  match cs.dropWhile isSpace with
  | '"' :: rest => (readString? rest).map fun (s, rest) => (some (String.ofList s), rest)
  | cs => (afterWord? "null" cs).map fun rest => (none, rest)

/-- Reads a flag; `none` inside the answer is `null`. -/
def readFlag? (cs : List Char) : Option (Option Bool × List Char) :=
  let cs := cs.dropWhile isSpace
  ((afterWord? "true" cs).map fun rest => (some true, rest)).orElse fun _ =>
    ((afterWord? "false" cs).map fun rest => (some false, rest)).orElse fun _ =>
      (afterWord? "null" cs).map fun rest => (none, rest)

/-- Reads the items of a list and its closing bracket. `earlier` is what a `null` stands for at each
place. -/
def readItems? : (fuel : Nat) → (earlier : List String) → List Char →
    Option (List String × List Char)
  | 0, _, _ => none
  | fuel + 1, earlier, cs =>
    match readText? cs with
    | none => none
    | some (item?, rest) =>
      let item := item?.getD (earlier.headD "")
      match rest.dropWhile isSpace with
      | ']' :: rest => some ([item], rest)
      | ',' :: rest =>
        (readItems? fuel earlier.tail rest).map fun (items, rest) => (item :: items, rest)
      | _ => none

/-- Reads a list; `null` is the empty list. -/
def readList? (earlier : List String) (cs : List Char) : Option (List String × List Char) :=
  match cs.dropWhile isSpace with
  | '[' :: rest =>
    match rest.dropWhile isSpace with
    | ']' :: rest => some ([], rest)
    | _ => readItems? (rest.length + 1) earlier rest
  | cs => (afterWord? "null" cs).map fun rest => ([], rest)

/-- A setting that a key may still turn out to name. -/
structure Candidate where
  /-- The setting. -/
  setting : Setting
  /-- What of its key has not been met. -/
  rest : List Char

namespace Candidate

/-- All settings in the order of their keys, of which nothing has been met. -/
def all : List Candidate :=
  [.exportFields, .generator, .imports, .output, .package, .variants].map fun s => ⟨s, s.key.toList⟩

/-- The candidates that go on with a character. -/
def meet (c : Char) (left : List Candidate) : List Candidate :=
  left.filterMap fun k =>
    match k.rest with
    | d :: rest => if d = c.toLower then some ⟨k.setting, rest⟩ else none
    | [] => none

/-- The setting that a key of so many octets names: the first candidate, if it is no longer. -/
def choose? (octets : Nat) (left : List Candidate) : Option Setting :=
  match left with
  | k :: _ => if k.setting.key.length ≤ octets then some k.setting else none
  | [] => none

end Candidate

/-- The number that the next `n` octets write in hexadecimal, where one that is no digit counts as
zero, whether they end inside a character, and what follows them and that character. -/
def octetCode? : (n value : Nat) → List Char → Option (Nat × Bool × List Char)
  | 0, value, cs => some (value, false, cs)
  | _ + 1, _, [] => none
  | n + 1, value, c :: rest =>
    let width := c.utf8Size
    if width ≤ n + 1 then
      octetCode? (n + 1 - width) (value * Nat.pow 16 width + (Text.hexValue? c).getD 0) rest
    else some (value * Nat.pow 16 (n + 1), true, rest)

/-- Passes over the rest of a key that names no setting. -/
def skipKey? (cs : List Char) : Option (Option Setting × List Char) :=
  (skipString? cs).map fun rest => (none, rest)

/-- Reads a key after its opening quote, of which so many octets have been read: the setting that it
names, if any, and what follows. -/
def readKey? : (fuel octets : Nat) → List Candidate → List Char →
    Option (Option Setting × List Char)
  | 0, _, _, _ => none
  | fuel + 1, octets, left, cs =>
    match cs with
    | [] => none
    | '"' :: rest => some (Candidate.choose? octets left, rest)
    | '\x00' :: _ => none
    | '\\' :: 'u' :: rest =>
      match octetCode? 4 0 rest with
      | none => none
      | some (code, inside, after) =>
        let left := if code < 128 then Candidate.meet (Char.ofNat code) left else []
        if left.isEmpty then skipKey? rest
        else if inside then skipKey? after
        else readKey? fuel (octets + 6) left after
    | '\\' :: c :: rest =>
      if (escaped? c).isSome || 3 ≤ c.utf8Size then skipKey? rest
      else if c.utf8Size = 2 then readKey? fuel (octets + 3) left rest
      else match rest with
        | d :: rest =>
          if d.utf8Size = 1 then readKey? fuel (octets + 3) left rest else skipKey? rest
        | [] => none
    | c :: rest =>
      let left := Candidate.meet c left
      if left.isEmpty then skipKey? rest else readKey? fuel (octets + 1) left rest

/-- Reads the value of a key. -/
def readMember? (f : SchemaFile) (s? : Option Setting) (cs : List Char) :
    Option (SchemaFile × List Char) :=
  match s? with
  | none => (skipValue? cs).map fun rest => (f, rest)
  | some s =>
    match s.shape with
    | .text => (readText? cs).map fun (v?, rest) =>
      (match v? with
        | some v => f.setText s v
        | none => f, rest)
    | .flag => (readFlag? cs).map fun (v?, rest) =>
      (match v? with
        | some v => f.setFlag s v
        | none => f, rest)
    | .list => (readList? (f.list s) cs).map fun (v, rest) => (f.setList s v, rest)

/-- Reads the members of an object and its closing brace. -/
def readMembers? : (fuel : Nat) → SchemaFile → List Char → Option (SchemaFile × List Char)
  | 0, _, _ => none
  | fuel + 1, f, cs =>
    match cs.dropWhile isSpace with
    | '"' :: rest =>
      match readKey? (rest.length + 1) 0 Candidate.all rest with
      | none => none
      | some (s?, rest) =>
        match rest.dropWhile isSpace with
        | ':' :: rest =>
          match readMember? f s? rest with
          | none => none
          | some (f, rest) =>
            match rest.dropWhile isSpace with
            | '\x7d' :: rest => some (f, rest)
            | ',' :: rest => readMembers? fuel f rest
            | _ => none
        | _ => none
    | _ => none

/-- Reads an object or `null`. -/
def readObject? (cs : List Char) : Option (SchemaFile × List Char) :=
  match cs.dropWhile isSpace with
  | '\x7b' :: rest =>
    match rest.dropWhile isSpace with
    | '\x7d' :: rest => some ({}, rest)
    | _ => readMembers? (rest.length + 1) {} rest
  | cs => (afterWord? "null" cs).map fun rest => ({}, rest)

/-- Whether nothing but space follows, or space and a null character. -/
def isEnd (cs : List Char) : Bool :=
  match cs.dropWhile isSpace with
  | [] => true
  | c :: _ => c = '\x00'

end NodeFamily.Json

namespace NodeFamily.SchemaFile

/-- Reads a schema file in JSON. -/
def ofJson? (content : String) : Option SchemaFile :=
  match Json.readObject? content.toList with
  | some (f, rest) => if Json.isEnd rest then some f else none
  | none => none

end NodeFamily.SchemaFile
