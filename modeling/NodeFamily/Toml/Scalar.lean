import NodeFamily.Text.Cut
import NodeFamily.Text.Digit
import NodeFamily.Text.Letter

/-!
# TOML scalars

Strings, numbers, dates and truth values. Of a number or a date only that it is well-formed matters
here, since no setting takes one.
-/

namespace NodeFamily.Toml

/-- Whether a character is a blank between tokens on a line. -/
def isBlank (c : Char) : Bool := c == ' ' || c == '\t'

/-- Whether a character belongs to a line end. -/
def isLineEnd (c : Char) : Bool := c == '\n' || c == '\r'

/-- Whether a character may not stand in a document. -/
def isControl (c : Char) : Bool :=
  (c.toNat < 0x20 && c != '\t' && c != '\n' && c != '\r') || c.toNat == 0x7F

/-- Whether every character may stand in a document, and every carriage return before a line
feed. -/
def isPlainText : List Char → Bool
  | [] => true
  | '\r' :: '\n' :: rest => isPlainText rest
  | '\r' :: _ => false
  | c :: rest => !isControl c && isPlainText rest

/-- The character that `width` hexadecimal digits at the front stand for, and the rest. -/
def readCode? (width : Nat) (cs : List Char) : Option (Char × List Char) :=
  let digits := cs.take width
  if digits.length < width then none
  else
    match Text.hexNumber? digits with
    | none => none
    | some n => if n.isValidChar then some (Char.ofNat n, cs.drop width) else none

/-- The character of an escape after its backslash, and the rest. -/
def readEscape? : List Char → Option (Char × List Char)
  | 'b' :: rest => some ('\x08', rest)
  | 't' :: rest => some ('\t', rest)
  | 'n' :: rest => some ('\n', rest)
  | 'f' :: rest => some ('\x0c', rest)
  | 'r' :: rest => some ('\r', rest)
  | '"' :: rest => some ('"', rest)
  | '\\' :: rest => some ('\\', rest)
  | 'u' :: rest => readCode? 4 rest
  | 'U' :: rest => readCode? 8 rest
  | _ => none

/-- Reads a basic string on one line after its opening quote. -/
def readBasic? : (fuel : Nat) → List Char → Option (List Char × List Char)
  | 0, _ => none
  | _, [] => none
  | fuel + 1, c :: rest =>
    if c = '"' then some ([], rest)
    else if isLineEnd c then none
    else if c = '\\' then
      match readEscape? rest with
      | none => none
      | some (e, rest) => (readBasic? fuel rest).map fun (cs, rest) => (e :: cs, rest)
    else (readBasic? fuel rest).map fun (cs, rest) => (c :: cs, rest)

/-- Reads a literal string on one line after its opening quote. -/
def readLiteral? : List Char → Option (List Char × List Char)
  | [] => none
  | c :: rest =>
    if c = '\'' then some ([], rest)
    else if isLineEnd c then none
    else (readLiteral? rest).map fun (cs, rest) => (c :: cs, rest)

/-- The number of quotes at the front. -/
def quoteCount (quote : Char) (cs : List Char) : Nat := (cs.takeWhile (· = quote)).length

/-- The text after a line-ending backslash: blanks and line ends, of which there is at least one,
are passed over. Nothing when the backslash does not end its line. -/
def afterFold? (cs : List Char) : Option (List Char) :=
  let gap := cs.takeWhile fun c => isBlank c || isLineEnd c
  if gap.contains '\n' then some (cs.drop gap.length) else none

/-- Reads a basic string of several lines after its opening quotes. Two quotes may stand right
before the closing three, and three when these follow an escaped backslash: `most` is how many
quotes may stand here in a row. -/
def readBasicLines? : (fuel : Nat) → (most : Nat) → List Char → Option (List Char × List Char)
  | 0, _, _ => none
  | _, _, [] => none
  | fuel + 1, most, c :: rest =>
    if c = '"' then
      let n := quoteCount '"' (c :: rest)
      if n < 3 then (readBasicLines? fuel 5 rest).map fun (cs, rest) => (c :: cs, rest)
      else if n ≤ most then some (List.replicate (n - 3) '"', (c :: rest).drop n)
      else none
    else if c = '\\' then
      match afterFold? rest with
      | some rest => readBasicLines? fuel 5 rest
      | none =>
        match readEscape? rest with
        | none => none
        | some (e, after) =>
          let most := if rest.head? = some '\\' then 6 else 5
          (readBasicLines? fuel most after).map fun (cs, rest) => (e :: cs, rest)
    else (readBasicLines? fuel 5 rest).map fun (cs, rest) => (c :: cs, rest)

/-- Reads a literal string of several lines after its opening quotes. -/
def readLiteralLines? : List Char → Option (List Char × List Char)
  | [] => none
  | c :: rest =>
    if c = '\'' then
      let n := quoteCount '\'' (c :: rest)
      if n < 3 then (readLiteralLines? rest).map fun (cs, rest) => (c :: cs, rest)
      else if n ≤ 5 then some (List.replicate (n - 3) '\'', (c :: rest).drop n)
      else none
    else (readLiteralLines? rest).map fun (cs, rest) => (c :: cs, rest)

/-- Drops the line end right after the opening quotes of a string of several lines. -/
def dropFirstLineEnd : List Char → List Char
  | '\n' :: rest => rest
  | '\r' :: '\n' :: rest => rest
  | cs => cs

/-- Whether underscores stand only between digits. -/
def underscoresOk (isDigit : Char → Bool) (cs : List Char) : Bool :=
  (Text.cutAt '_' cs).all fun part => !part.isEmpty && part.all isDigit

/-- The digits of a number without underscores. -/
def withoutUnderscores (cs : List Char) : List Char := cs.filter (· ≠ '_')

/-- Whether the digits have a zero before another digit. -/
def hasLeadingZero : List Char → Bool
  | '0' :: _ :: _ => true
  | _ => false

/-- Whether the characters are a decimal integer of 64 bits. -/
def isInteger (cs : List Char) : Bool :=
  let digits := Text.withoutSign cs
  let value := Text.digitsValue 10 (withoutUnderscores digits)
  underscoresOk Char.isDigit digits && !hasLeadingZero (withoutUnderscores digits) &&
    value ≤ (if cs.head? = some '-' then Text.signedLimit else Text.signedLimit - 1)

/-- Whether the digits after a base mark are an integer of 64 bits. -/
def isBaseInteger (base : Nat) (digits : List Char) : Bool :=
  underscoresOk (Text.isDigitIn base) digits &&
    Text.digitsValue base (withoutUnderscores digits) < Text.signedLimit

/-- Whether the characters are a decimal number with a fraction, an exponent or both, and not too
large for one of double precision. -/
def isFloat (cs : List Char) : Bool :=
  let unsigned := Text.withoutSign cs
  let mantissa := unsigned.takeWhile fun c => c ≠ 'e' ∧ c ≠ 'E'
  let exponent := unsigned.drop mantissa.length
  let exponentOk := match exponent with
    | [] => true
    | _ :: digits => underscoresOk Char.isDigit (Text.withoutSign digits)
  let fraction := withoutUnderscores ((mantissa.dropWhile (· ≠ '.')).drop 1)
  let whole := withoutUnderscores (mantissa.takeWhile (· ≠ '.'))
  let power := Text.signedExponent (withoutUnderscores (exponent.drop 1))
  let mantissaOk := match Text.cutAt '.' mantissa with
    | [whole] => underscoresOk Char.isDigit whole && !hasLeadingZero (withoutUnderscores whole)
    | [whole, fraction] =>
      underscoresOk Char.isDigit whole && !hasLeadingZero (withoutUnderscores whole) &&
        underscoresOk Char.isDigit fraction
    | _ => false
  mantissaOk && exponentOk &&
    !Text.exceedsDouble whole fraction power

/-- The number that exactly `width` decimal digits at the front write, and the rest. -/
def readNumber? (width : Nat) (cs : List Char) : Option (Nat × List Char) :=
  let digits := cs.take width
  if digits.length = width && digits.all Char.isDigit then
    some (Text.digitsValue 10 digits, cs.drop width)
  else none

/-- What follows a date at the front. -/
def afterDate? (cs : List Char) : Option (List Char) :=
  match readNumber? 4 cs with
  | some (year, '-' :: rest) =>
    match readNumber? 2 rest with
    | some (month, '-' :: rest) =>
      match readNumber? 2 rest with
      | some (day, rest) =>
        if Text.isDate year month day then some rest else none
      | none => none
    | _ => none
  | _ => none

/-- What follows a time of day at the front. -/
def afterTime? (cs : List Char) : Option (List Char) :=
  match readNumber? 2 cs with
  | some (hour, ':' :: rest) =>
    match readNumber? 2 rest with
    | some (minute, ':' :: rest) =>
      match readNumber? 2 rest with
      | some (second, rest) =>
        if hour < 24 ∧ minute < 60 ∧ second < 60 then
          match rest with
          | '.' :: d :: more => if d.isDigit then some (more.dropWhile Char.isDigit) else none
          | _ => some rest
        else none
      | none => none
    | _ => none
  | _ => none

/-- Whether the characters are a time zone: an offset of whole days and of whole hours in minutes is
one too. -/
def isZone (cs : List Char) : Bool :=
  match cs with
  | ['Z'] => true
  | sign :: rest =>
    (sign = '+' || sign = '-') &&
      match readNumber? 2 rest with
      | some (hour, ':' :: rest) =>
        match readNumber? 2 rest with
        | some (minute, []) => hour ≤ 24 && minute ≤ 60
        | _ => false
      | _ => false
  | [] => false

/-- Whether the characters are a date, a time of day, or both with or without a zone. -/
def isMoment (cs : List Char) : Bool :=
  let cs := cs.map fun c => if c = 't' ∨ c = ' ' then 'T' else if c = 'z' then 'Z' else c
  match afterDate? cs with
  | some [] => true
  | some ('T' :: rest) =>
    match afterTime? rest with
    | some [] => true
    | some zone => isZone zone
    | none => false
  | some _ => false
  | none => afterTime? cs == some []

/-- Whether a character may stand in a date after its first digits. -/
def isMomentPart (c : Char) : Bool :=
  c.isDigit || ['-', ':', 'T', 't', ' ', '.', 'Z', 'z', '+'].contains c

/-- What follows the decimal integer `whole` at the front of `unsigned`, which has the sign of
`cs`. -/
def afterInteger? (cs whole unsigned : List Char) : Option (List Char) :=
  let sign := if cs.head? = some '-' then ['-'] else []
  if isInteger (sign ++ whole) then some (unsigned.drop whole.length) else none

/-- Passes over a number or a date at the front; nothing when it is malformed. -/
def skipNumber? (cs : List Char) : Option (List Char) :=
  let signed := cs.head?.any fun c => c = '+' || c = '-'
  let unsigned := Text.withoutSign cs
  let based (base : Nat) : Option (List Char) :=
    let digits := (unsigned.drop 2).takeWhile fun c => Text.isDigitIn base c || c == '_'
    if !signed && isBaseInteger base digits then some (unsigned.drop (2 + digits.length)) else none
  match unsigned with
  | 'i' :: 'n' :: 'f' :: rest => some rest
  | 'n' :: 'a' :: 'n' :: rest => some rest
  | '0' :: 'x' :: _ => based 16
  | '0' :: 'o' :: _ => based 8
  | '0' :: 'b' :: _ => based 2
  | _ =>
    let digits := unsigned.takeWhile Char.isDigit
    if digits.isEmpty then none
    else match unsigned.drop digits.length with
      | c :: _ =>
        if !signed && digits.length ≥ 2 && (c = '-' || c = ':') then
          let moment := unsigned.takeWhile isMomentPart
          let trimmed := (moment.reverse.dropWhile isBlank).reverse
          if isMoment trimmed then some (unsigned.drop moment.length) else none
        else
          let whole := unsigned.takeWhile fun c => c.isDigit || c == '_'
          match unsigned.drop whole.length with
          | c' :: _ =>
            if c' = '.' || c' = 'e' || c' = 'E' then
              let float := unsigned.takeWhile fun c =>
                c.isDigit || ['_', '.', '-', '+', 'e', 'E'].contains c
              if isFloat float then some (unsigned.drop float.length) else none
            else afterInteger? cs whole unsigned
          | [] => afterInteger? cs whole unsigned
      | [] => afterInteger? cs digits unsigned

end NodeFamily.Toml
