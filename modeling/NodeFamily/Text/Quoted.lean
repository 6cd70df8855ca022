import NodeFamily.Text.Printable

/-!
# Quoted texts

`quote` writes a text between double quotes so that it fits on one line and shows what it holds.
Printable characters stand for themselves, a quote or a backslash gets a backslash before it, and
every other character is written as an escape: a letter for the seven common controls, else two,
four or eight hexadecimal digits.
-/

namespace NodeFamily.Text

/-- The digit of a number below sixteen, in lower case. -/
def hexDigit (n : Nat) : Char := if n < 10 then Char.ofNat (48 + n) else Char.ofNat (87 + n)

/-- The last `width` hexadecimal digits of `n`. -/
def hexDigits (width n : Nat) : List Char :=
  (List.range width).reverse.map fun i => hexDigit (n / Nat.pow 16 i % 16)

/-- The letter that stands for a common control character after a backslash. -/
def controlLetter? (c : Char) : Option Char :=
  if c = '\x07' then some 'a'
  else if c = '\x08' then some 'b'
  else if c = '\x0c' then some 'f'
  else if c = '\n' then some 'n'
  else if c = '\r' then some 'r'
  else if c = '\t' then some 't'
  else if c = '\x0b' then some 'v'
  else none

/-- A character as it is written inside quotes of the given kind. -/
def escapeWithin (mark c : Char) : List Char :=
  if c = mark ∨ c = '\\' then ['\\', c]
  else if isPrintable c then [c]
  else match controlLetter? c with
    | some l => ['\\', l]
    | none =>
      if c.toNat < 0x20 ∨ c.toNat = 0x7F then '\\' :: 'x' :: hexDigits 2 c.toNat
      else if c.toNat < 0x10000 then '\\' :: 'u' :: hexDigits 4 c.toNat
      else '\\' :: 'U' :: hexDigits 8 c.toNat

/-- A character as it is written inside double quotes. -/
def escapeChar (c : Char) : List Char := escapeWithin '"' c

/-- A character between single quotes. -/
def quoteChar (c : Char) : String := String.ofList ('\'' :: (escapeWithin '\'' c ++ ['\'']))

/-- A text between double quotes. -/
def quote (s : String) : String :=
  String.ofList ('"' :: (s.toList.flatMap escapeChar ++ ['"']))

/-- Whether a text can stand between backquotes, where nothing is escaped: it has no backquote, no
control character but tabs, and no byte order mark. -/
def isBackquotable (s : String) : Bool :=
  s.toList.all fun c => c == '\t' || (0x20 ≤ c.toNat && c != '`' && c != '\x7f' && c != '\ufeff')

/-- A text between backquotes where that is possible, and else between double quotes. -/
def backquote (s : String) : String := if isBackquotable s then "`" ++ s ++ "`" else quote s

end NodeFamily.Text
