import NodeFamily.Identifier
import NodeFamily.Layout.Place

/-!
# Lexical elements

`lexemes?` cuts Go source into its lexical elements, comments included, each with its position. A
line break after an element that can end a statement counts as a semicolon. A text that is malformed
anywhere has no lexical elements at all.
-/

namespace NodeFamily.Layout

/-- The kinds of literals. -/
inductive LiteralKind
  | integer
  | real
  | imaginary
  | character
  | text
deriving DecidableEq, Repr

/-- Whether literals of a kind are numbers. -/
def LiteralKind.isNumber : LiteralKind → Bool
  | .integer | .real | .imaginary => true
  | .character | .text => false

/-- A lexical element. -/
inductive Lexeme
  /-- An identifier. -/
  | name (text : String)
  /-- A literal as it is written. -/
  | literal (kind : LiteralKind) (text : String)
  /-- A keyword or an operator. -/
  | sign (text : String)
  /-- A semicolon that is written, or one that a line break stands for. -/
  | semicolon (written : Bool)
  /-- A comment with its marks. -/
  | comment (text : String)
  /-- The end of the text. -/
  | finish
deriving DecidableEq, Repr

/-- Whether a line break after a lexical element counts as a semicolon. -/
def Lexeme.endsStatement : Lexeme → Bool
  | .name _ | .literal _ _ => true
  | .sign s =>
    ["break", "continue", "fallthrough", "return", "++", "--", ")", "]", "\x7d"].contains s
  | .semicolon _ | .comment _ | .finish => false

/-- The value of a hexadecimal digit. -/
def hexValue? (c : Char) : Option Nat :=
  if c.isDigit then some (c.toNat - '0'.toNat)
  else if 'a' ≤ c && c ≤ 'f' then some (c.toNat - 'a'.toNat + 10)
  else if 'A' ≤ c && c ≤ 'F' then some (c.toNat - 'A'.toNat + 10)
  else none

/-- A digit of a number or the underscore between two. -/
def isNumberPart (hex : Bool) (c : Char) : Bool :=
  c == '_' || c.isDigit || (hex && (hexValue? c).isSome)

/-- The mark of a number's base: `x`, `o` or `b` after a zero, `0` for a zero alone and a space for
none, with the characters that write it and the rest. -/
def baseMark : List Char → Char × List Char × List Char
  | '0' :: c :: rest =>
    if ['x', 'o', 'b'].contains c.toLower then (c.toLower, ['0', c], rest)
    else ('0', ['0'], c :: rest)
  | '0' :: [] => ('0', ['0'], [])
  | cs => (' ', [], cs)

/-- Whether a digit is too great for the base with the given mark. -/
def exceedsBase (mark c : Char) : Bool :=
  (mark == 'b' && c.isDigit && '1' < c) || ((mark == '0' || mark == 'o') && c.isDigit && '7' < c)

/-- Whether every underscore stands between two digits; `before` is `0` after a digit, the
underscore after one and a point after anything else. -/
def separatesDigits (hex : Bool) : (before : Char) → List Char → Bool
  | before, [] => before != '_'
  | before, c :: rest =>
    if c == '_' then before == '0' && separatesDigits hex '_' rest
    else if isNumberPart hex c then separatesDigits hex '0' rest
    else before != '_' && separatesDigits hex '.' rest

/-- An exponent with its mark, and the rest. Nothing when it has no digits or when its mark does not
go with the base. -/
def exponent? (mark : Char) : List Char → Option (List Char × List Char)
  | [] => some ([], [])
  | e :: rest =>
    let power := e.toLower
    if power != 'e' && power != 'p' then some ([], e :: rest)
    else if (power == 'e' && mark != ' ' && mark != '0') || (power == 'p' && mark != 'x') then none
    else
      let (sign, rest) := match rest with
        | c :: more => if c == '+' || c == '-' then ([c], more) else ([], rest)
        | [] => ([], [])
      let digits := rest.takeWhile (isNumberPart false)
      if digits.any (· != '_') then some (e :: sign ++ digits, rest.drop digits.length) else none

/-- A number at the front with its kind, and the rest. -/
def number? (cs : List Char) : Option (LiteralKind × List Char × List Char) := do
  let (mark, lead, rest) := baseMark cs
  let hex := mark == 'x'
  let whole := rest.takeWhile (isNumberPart hex)
  let rest := rest.drop whole.length
  let pointed := rest.head? == some '.'
  let fraction := if pointed then '.' :: (rest.drop 1).takeWhile (isNumberPart hex) else []
  let rest := rest.drop fraction.length
  if pointed && (mark == 'o' || mark == 'b') then none
  else if !(mark == '0' || (whole ++ fraction.drop 1).any (· != '_')) then none
  else
    let (power, rest) ← exponent? mark rest
    if hex && pointed && power.isEmpty then none
    else
      let unit := if rest.head? == some 'i' then ['i'] else []
      let kind :=
        if !unit.isEmpty then .imaginary
        else if pointed || !power.isEmpty then .real
        else .integer
      let tail := whole ++ fraction ++ power ++ unit
      let fits :=
        if mark == ' ' || mark == '0' then separatesDigits false '.' (lead ++ tail)
        else separatesDigits hex '0' tail
      if kind == .integer && whole.any (exceedsBase mark) then none
      else if fits then some (kind, lead ++ tail, rest.drop unit.length)
      else none

/-- The value of digits in a base, or nothing when there are too few or one is too great. -/
def digitsValue? (base count : Nat) (cs : List Char) : Option Nat :=
  if (cs.take count).length < count then none
  else (cs.take count).foldl (fun n c => do
    let n ← n
    let d ← hexValue? c
    if d < base then some (n * base + d) else none) (some 0)

/-- Whether a code is that of a character. -/
def isScalarCode (n : Nat) : Bool := n ≤ 0x10FFFF && !(0xD800 ≤ n && n < 0xE000)

/-- The number of characters of an escape after its backslash, or nothing when it is malformed. -/
def escape? (quote : Char) : List Char → Option Nat
  | [] => none
  | c :: rest =>
    if c == quote || ['a', 'b', 'f', 'n', 'r', 't', 'v', '\\'].contains c then some 1
    else if '0' ≤ c && c ≤ '7' then
      (digitsValue? 8 3 (c :: rest)).bind fun n => if n ≤ 255 then some 3 else none
    else if c == 'x' then (digitsValue? 16 2 rest).map fun _ => 3
    else if c == 'u' then
      (digitsValue? 16 4 rest).bind fun n => if isScalarCode n then some 5 else none
    else if c == 'U' then
      (digitsValue? 16 8 rest).bind fun n => if isScalarCode n then some 9 else none
    else none

/-- The rest of a quoted literal whose opening quote is read, backwards before `done`, and what
follows it. Also the number of characters in it when `count` are read already. -/
def quoted? (quote : Char) :
    (fuel count : Nat) → (done : List Char) → List Char → Option (Nat × List Char × List Char)
  | 0, _, _, _ => none
  | _ + 1, _, _, [] => none
  | fuel + 1, count, done, c :: rest =>
    if c == '\n' then none
    else if c == quote then some (count, (c :: done).reverse, rest)
    else if c == '\\' then
      (escape? quote rest).bind fun n =>
        quoted? quote fuel (count + 1) ((rest.take n).reverse ++ c :: done) (rest.drop n)
    else quoted? quote fuel (count + 1) (c :: done) rest

/-- A comment in marks up to its closing mark, backwards before `done`, and what follows it. -/
def block? (done : List Char) : List Char → Option (List Char × List Char)
  | '*' :: '/' :: rest => some (('/' :: '*' :: done).reverse, rest)
  | c :: rest => block? (c :: done) rest
  | [] => none

/-- A comment in marks without its carriage returns, save one that keeps a star and a slash apart.
`before` holds what is kept so far, backwards. -/
def withoutReturns (before : List Char) : List Char → List Char
  | [] => before.reverse
  | '\r' :: rest =>
    if before.length > 2 && before.head? == some '*' && rest.head? == some '/' then
      withoutReturns ('\r' :: before) rest
    else withoutReturns before rest
  | c :: rest => withoutReturns (c :: before) rest

/-- The operators, the longer ones first. -/
def operators : List String :=
  ["<<=", ">>=", "&^=", "...", "&&", "||", "<-", "++", "--", "==", "!=", "<=", ">=", ":=", "+=",
    "-=", "*=", "/=", "%=", "&=", "|=", "^=", "<<", ">>", "&^", "+", "-", "*", "/", "%", "&", "|",
    "^", "<", ">", "=", "!", "(", ")", "[", "]", "\x7b", "\x7d", ",", ".", ":", "~"]

/-- The element at the front of a text that starts with no white space and no comment, with the
characters that write it and what follows it. -/
def plainLexeme? (cs : List Char) : Option (Lexeme × List Char × List Char) :=
  match cs with
  | [] => none
  | c :: rest =>
    let reach := (rest.takeWhile (· != '\n')).length + 1
    if opensIdentifier c then
      let raw := cs.takeWhile continuesIdentifier
      let word := String.ofList raw
      let kind : Lexeme := if keywords.contains word then .sign word else .name word
      some (kind, raw, cs.dropWhile continuesIdentifier)
    else if c.isDigit || (c == '.' && rest.head?.any Char.isDigit) then
      (number? cs).map fun (kind, raw, rest) => (.literal kind (String.ofList raw), raw, rest)
    else if c == ';' then some (.semicolon true, [c], rest)
    else if c == '\x22' then
      (quoted? c reach 0 [c] rest).map fun (_, raw, rest) =>
        (.literal .text (String.ofList raw), raw, rest)
    else if c == '\x27' then
      (quoted? c reach 0 [c] rest).bind fun (count, raw, rest) =>
        if count == 1 then some (.literal .character (String.ofList raw), raw, rest) else none
    else if c == '\x60' then
      let inner := rest.takeWhile (· != '\x60')
      match rest.drop inner.length with
      | [] => none
      | _ :: after =>
        let raw := c :: inner ++ [c]
        some (.literal .text (String.ofList (raw.filter (· != '\r'))), raw, after)
    else
      (operators.find? fun op => op.toList.isPrefixOf cs).map fun op =>
        (.sign op, op.toList, cs.drop op.length)

/-- A place after which lines are counted anew, as a comment asks for. -/
structure LineShift where
  /-- The offset from which on the lines are counted anew. -/
  offset : Nat
  /-- The number of the line there. -/
  line : Nat
deriving DecidableEq, Repr

/-- The greatest line or column that a comment may ask for. -/
def lineLimit : Nat := 1073741824

/-- What stands after the last colon as a number, with what stands before it. Nothing when there is
no colon, and no number when there is one but no number follows. -/
def numberAtEnd? (cs : List Char) : Option (List Char × Option Nat) :=
  let tail := (cs.reverse.takeWhile (· != ':')).reverse
  if tail.length == cs.length then none
  else
    let number := if !tail.isEmpty && tail.all Char.isDigit then
        (String.ofList tail).toNat?.filter (· < 18446744073709551616)
      else none
    some (cs.take (cs.length - tail.length - 1), number)

/-- The line that a comment asks for, which is the line number at its end, before a column number if
there is one. Nothing when the number is malformed, and no line when it asks for none. -/
def askedLine? (cs : List Char) : Option (Option Nat) :=
  match numberAtEnd? cs with
  | none => some none
  | some (_, none) => none
  | some (before, some n) =>
    let inRange (n : Nat) := 0 < n && n ≤ lineLimit
    match numberAtEnd? before with
    | some (_, some line) => if inRange n && inRange line then some (some line) else none
    | _ => if inRange n then some (some n) else none

/-- What cutting a text into lexical elements has found so far. -/
structure Scan where
  /-- The elements with their positions, backwards. -/
  found : List (Nat × Lexeme) := []
  /-- The line counts that comments ask for, backwards. -/
  shifts : List LineShift := []
  /-- Whether a line break counts as a semicolon. -/
  ready : Bool := false
  /-- The offset of the rest. -/
  offset : Nat := 0
  /-- The offset at which the line starts. -/
  lineStart : Nat := 0
deriving Repr

namespace Scan

/-- Adds an element that takes the given characters. -/
def add (s : Scan) (l : Lexeme) (cs : List Char) : Scan :=
  { s with found := (s.offset + 1, l) :: s.found, ready := l.endsStatement,
           offset := s.offset + octets cs }

/-- Adds the line count that a comment asks for, if it asks for one. -/
def addShift (s : Scan) (raw : List Char) (atStart : Bool) (next size : Nat) : Option Scan :=
  let (block, body) := match raw with
    | '/' :: '*' :: rest => (true, rest.take (rest.length - 2))
    | _ :: _ :: rest =>
      (false, if rest.getLast? == some '\r' then rest.dropLast else rest)
    | _ => (false, [])
  if !((block || atStart) && "line ".toList.isPrefixOf body) then some s
  else (askedLine? (body.drop 5)).map fun
    | none => s
    | some line =>
      if next < size && s.shifts.head?.all (·.offset < next) then
        { s with shifts := ⟨next, line⟩ :: s.shifts }
      else s

/-- Adds a comment to the end of its line. -/
def addLineComment (s : Scan) (raw rest : List Char) (size : Nat) : Option Scan :=
  let stop := s.offset + octets raw
  let next := if rest.isEmpty then stop else stop + 1
  (s.addShift raw (s.offset == s.lineStart) next size).map fun s =>
    { s with found := (s.offset + 1, .comment (String.ofList (raw.filter (· != '\r')))) :: s.found,
             offset := stop }

/-- Adds a comment in marks. A line break in it counts as a semicolon after it. -/
def addBlockComment (s : Scan) (raw : List Char) (size : Nat) : Option Scan :=
  let stop := s.offset + octets raw
  (s.addShift raw true stop size).map fun s =>
    let found := (s.offset + 1, .comment (String.ofList (withoutReturns [] raw))) :: s.found
    let line := raw.takeWhile (· != '\n')
    let tail := (raw.reverse.takeWhile (· != '\n'))
    let broken := line.length < raw.length
    let lineStart := if broken then stop - octets tail else s.lineStart
    if s.ready && broken then
      { s with found := (s.offset + octets line + 1, .semicolon false) :: found, ready := false,
               offset := stop, lineStart }
    else { s with found, offset := stop, lineStart }

/-- Cuts the rest of a text of `size` octets. -/
def run (size : Nat) : (fuel : Nat) → Scan → List Char → Option Scan
  | 0, _, _ => none
  | _ + 1, s, [] =>
    let found := if s.ready then (s.offset + 1, .semicolon false) :: s.found else s.found
    some { s with found := (s.offset + 1, .finish) :: found }
  | fuel + 1, s, c :: rest =>
    if c == '\n' then
      let found := if s.ready then (s.offset + 1, .semicolon false) :: s.found else s.found
      run size fuel
        { s with found, ready := false, offset := s.offset + 1, lineStart := s.offset + 1 } rest
    else if c == ' ' || c == '\t' || c == '\r' then
      run size fuel { s with offset := s.offset + 1 } rest
    else if c == '/' && rest.head? == some '/' then
      let raw := c :: rest.takeWhile (· != '\n')
      let rest := rest.dropWhile (· != '\n')
      (s.addLineComment raw rest size).bind fun s => run size fuel s rest
    else if c == '/' && rest.head? == some '*' then
      (block? ['*', '/'] (rest.drop 1)).bind fun (raw, rest) =>
        (s.addBlockComment raw size).bind fun s => run size fuel s rest
    else
      (plainLexeme? (c :: rest)).bind fun (l, raw, rest) => run size fuel (s.add l raw) rest

end Scan

/-- Whether a character may not stand anywhere in source text: the null character and the byte-order
mark. -/
def isForbidden (c : Char) : Bool := c == '\x00' || c == '\ufeff'

/-- The lexical elements of a text with their positions, and the line counts that comments ask
for. -/
def lexemes? (cs : List Char) : Option (List (Nat × Lexeme) × List LineShift) :=
  if cs.any isForbidden then none
  else (Scan.run (octets cs) (cs.length + 2) {} cs).map fun s =>
    (s.found.reverse, s.shifts.reverse)

end NodeFamily.Layout
