import NodeFamily.Text.Digit
import NodeFamily.Text.Raw

/-!
# What YAML scalars mean

A plain scalar without a tag is nothing, a truth value or a text, and one in quotes or a block is
always a text. A tag says which of these a scalar is meant to be, and a scalar that cannot be read
in that way has no meaning. A number or a date is kept as the text that it is written with.
-/

namespace NodeFamily.Yaml

/-- What a scalar means. -/
inductive Meaning
  | nothing
  | flag (value : Bool)
  | text (value : Text.Raw)
deriving DecidableEq, Repr

namespace Meaning

/-- The way that tags of the standard set begin when they are written in full. -/
def standardTags : String := "tag:yaml.org,2002:"

/-- A tag in short: the standard tags begin with two exclamation marks. -/
def shortTag (tag : String) : String :=
  if standardTags.toList.isPrefixOf tag.toList then
    String.ofList ('!' :: '!' :: tag.toList.drop standardTags.length)
  else tag

/-- Whether a plain scalar means nothing. -/
def isNothing (text : String) : Bool := ["", "~", "null", "Null", "NULL"].contains text

/-- The truth value that a plain scalar means. -/
def flag? (text : String) : Option Bool :=
  if ["true", "True", "TRUE"].contains text then some true
  else if ["false", "False", "FALSE"].contains text then some false
  else none

/-- What a plain scalar without a tag means. -/
def ofPlain (text : String) : Meaning :=
  if isNothing text then .nothing
  else match flag? text with
    | some b => .flag b
    | none => .text text

/-- Whether a number or a date may begin with a character. -/
def opensNumber (cs : List Char) : Bool :=
  cs.head?.any fun c => c.isDigit || c == '+' || c == '-'

/-- The base of an unsigned integer and its digits after the mark of the base. -/
def baseAndDigits : List Char → Nat × List Char
  | '0' :: c :: d :: rest =>
    if c == 'x' || c == 'X' then (16, d :: rest)
    else if c == 'o' || c == 'O' then (8, d :: rest)
    else if c == 'b' || c == 'B' then (2, d :: rest)
    else (8, c :: d :: rest)
  | '0' :: rest => (8, rest)
  | cs => (10, cs)

/-- Whether digits, of which there may be none, write a number up to a bound. -/
def writesUpTo (bound base : Nat) (digits : List Char) : Bool :=
  digits.all (Text.isDigitIn base) && Text.digitsValue base digits ≤ bound

/-- Whether the characters are a binary or octal integer of 64 bits with its sign after the mark of
the base. -/
def isInnerSigned : List Char → Bool
  | '0' :: mark :: sign :: digit :: digits =>
    (mark == 'b' || mark == 'o') && (sign == '+' || sign == '-') &&
      writesUpTo (if sign == '-' then Text.signedLimit else Text.signedLimit - 1)
        (if mark == 'b' then 2 else 8) (digit :: digits)
  | _ => false

/-- Whether the characters are an integer of 64 bits, with the bound `top` where it has no sign.
Underscores do not count. -/
def isInteger (top : Nat) (cs : List Char) : Bool :=
  let number := cs.filter (· ≠ '_')
  let unsigned := Text.withoutSign number
  let (base, digits) := baseAndDigits unsigned
  let bound := match number.head? with
    | some '-' => Text.signedLimit
    | some '+' => Text.signedLimit - 1
    | _ => top
  opensNumber cs &&
    ((!unsigned.isEmpty && writesUpTo bound base digits) || isInnerSigned number)

/-- Whether every underscore stands between two digits; `afterDigit` says whether a digit has come
before. -/
def separatesDigits : (afterDigit : Bool) → List Char → Bool
  | _, [] => true
  | afterDigit, '_' :: rest =>
    afterDigit && rest.head?.any Char.isDigit && separatesDigits false rest
  | _, c :: rest => separatesDigits c.isDigit rest

/-- Whether the characters are a decimal number of double precision that is not an integer.
Underscores do not count, but in a number that begins with its point they have to separate
digits. -/
def isDecimal (cs : List Char) : Bool :=
  let number := cs.filter (· ≠ '_')
  let unsigned := Text.withoutSign number
  let whole := unsigned.takeWhile Char.isDigit
  let rest := unsigned.drop whole.length
  let fraction := if rest.head? = some '.' then rest.tail.takeWhile Char.isDigit else []
  let rest := if rest.head? = some '.' then rest.drop (1 + fraction.length) else rest
  let exponent := rest.drop 1
  let exponentOk := match rest with
    | [] => true
    | c :: _ =>
      let digits := Text.withoutSign exponent
      (c == 'e' || c == 'E') && !digits.isEmpty && digits.all Char.isDigit
  (opensNumber cs || (cs.head? = some '.' && separatesDigits false cs)) &&
    !(whole ++ fraction).isEmpty && exponentOk &&
    !Text.exceedsDouble whole fraction (Text.signedExponent exponent)

/-- Whether a scalar is written as a number of double precision. -/
def isFloat (text : String) : Bool :=
  [".nan", ".NaN", ".NAN", ".inf", ".Inf", ".INF", "+.inf", "+.Inf", "+.INF",
    "-.inf", "-.Inf", "-.INF"].contains text ||
    isInteger (Text.signedLimit - 1) text.toList ||
    (isDecimal text.toList && !isInteger (2 * Text.signedLimit - 1) text.toList)

/-- Reads a number of one or two digits, and what follows it. -/
def shortNumber? (cs : List Char) : Option (Nat × List Char) :=
  let digits := (cs.take 2).takeWhile Char.isDigit
  if digits.isEmpty then none else some (Text.digitsValue 10 digits, cs.drop digits.length)

/-- What follows a date in front. -/
def afterDate? (cs : List Char) : Option (List Char) :=
  let year := cs.takeWhile Char.isDigit
  match year.length, cs.drop 4 with
  | 4, '-' :: rest =>
    match shortNumber? rest with
    | some (month, '-' :: rest) =>
      match shortNumber? rest with
      | some (day, rest) =>
        if Text.isDate (Text.digitsValue 10 year) month day then some rest else none
      | none => none
    | _ => none
  | _, _ => none

/-- What follows a time of day in front. -/
def afterTime? (cs : List Char) : Option (List Char) :=
  match shortNumber? cs with
  | some (hour, ':' :: rest) =>
    match shortNumber? rest with
    | some (minute, ':' :: rest) =>
      match shortNumber? rest with
      | some (second, rest) =>
        if hour < 24 ∧ minute < 60 ∧ second < 60 then
          match rest with
          | c :: d :: more =>
            if (c == '.' || c == ',') && d.isDigit then some (more.dropWhile Char.isDigit)
            else some rest
          | _ => some rest
        else none
      | none => none
    | _ => none
  | _ => none

/-- Whether the characters are a time zone. -/
def isZone (cs : List Char) : Bool :=
  match cs with
  | ['Z'] => true
  | [sign, a, b, ':', c, d] =>
    (sign == '+' || sign == '-') && [a, b, c, d].all Char.isDigit &&
      Text.digitsValue 10 [a, b] ≤ 24 && Text.digitsValue 10 [c, d] ≤ 60
  | _ => false

/-- Whether a scalar is written as a date, alone or with a time of day. -/
def isMoment (text : String) : Bool :=
  match afterDate? text.toList with
  | none => false
  | some [] => true
  | some (c :: rest) =>
    if c == 'T' || c == 't' then (afterTime? rest).any isZone
    else c == ' ' && (afterTime? (rest.dropWhile (· == ' '))).any (·.isEmpty)

/-- The value of a digit in base 64. -/
def sextet? (c : Char) : Option Nat :=
  if 'A' ≤ c ∧ c ≤ 'Z' then some (c.toNat - 65)
  else if 'a' ≤ c ∧ c ≤ 'z' then some (c.toNat - 71)
  else if c.isDigit then some (c.toNat + 4)
  else if c = '+' then some 62
  else if c = '/' then some 63
  else none

/-- The octets that digits in base 64 write, four digits for three octets. -/
def octets? : List Char → Option (List Nat)
  | [] => some []
  | [a, b, '=', '='] =>
    match sextet? a, sextet? b with
    | some a, some b => some [(a * 64 + b) / 16]
    | _, _ => none
  | [a, b, c, '='] =>
    match sextet? a, sextet? b, sextet? c with
    | some a, some b, some c =>
      let n := (a * 64 + b) * 64 + c
      some [n / 1024, n / 4 % 256]
    | _, _, _ => none
  | a :: b :: c :: d :: rest =>
    match sextet? a, sextet? b, sextet? c, sextet? d with
    | some a, some b, some c, some d =>
      let n := ((a * 64 + b) * 64 + c) * 64 + d
      (octets? rest).map fun more => n / 65536 :: n / 256 % 256 :: n % 256 :: more
    | _, _, _, _ => none
  | _ => none

/-- What digits in base 64 write. Line breaks among them do not count. -/
def binary? (text : String) : Option Text.Raw :=
  (octets? (text.toList.filter fun c => c ≠ '\n' ∧ c ≠ '\r')).map fun os =>
    ⟨(os.map UInt8.ofNat).toByteArray⟩

/-- What a scalar means; nothing where it is not what its tag says. -/
def of? (isPlain : Bool) (tag text : String) : Option Meaning :=
  let tag := shortTag tag
  let asWritten (ok : Bool) : Option Meaning := if ok then some (.text text) else none
  if tag = "" ∨ tag = "!" then some (if isPlain then ofPlain text else .text text)
  else if tag = "!!null" then if isNothing text then some .nothing else none
  else if tag = "!!bool" then (flag? text).map .flag
  else if tag = "!!int" then asWritten (isInteger (2 * Text.signedLimit - 1) text.toList)
  else if tag = "!!float" then asWritten (isFloat text)
  else if tag = "!!timestamp" then asWritten (isMoment text)
  else if tag = "!!binary" then (binary? text).map .text
  else some (.text text)

end Meaning

end NodeFamily.Yaml
