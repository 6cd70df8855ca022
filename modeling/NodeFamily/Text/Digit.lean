/-!
# Digits

The values of digits in bases up to sixteen, and of the numbers that they write, with the bounds of
dates and of numbers in floating point that come with such texts.
-/

namespace NodeFamily.Text

/-- The value of a hexadecimal digit. -/
def hexValue? (c : Char) : Option Nat :=
  if '0' ≤ c ∧ c ≤ '9' then some (c.toNat - 48)
  else if 'a' ≤ c ∧ c ≤ 'f' then some (c.toNat - 87)
  else if 'A' ≤ c ∧ c ≤ 'F' then some (c.toNat - 55)
  else none

/-- Whether a character is a digit in a base. -/
def isDigitIn (base : Nat) (c : Char) : Bool := (hexValue? c).any (· < base)

/-- The number that digits write in a base. -/
def digitsValue (base : Nat) (digits : List Char) : Nat :=
  digits.foldl (fun n c => base * n + (hexValue? c).getD 0) 0

/-- The number that hexadecimal digits write, if they are such. -/
def hexNumber? (digits : List Char) : Option Nat :=
  if digits.all (isDigitIn 16) then some (digitsValue 16 digits) else none

/-- A number without its sign. -/
def withoutSign : List Char → List Char
  | '+' :: rest => rest
  | '-' :: rest => rest
  | cs => cs

/-- The size of a decimal exponent. Digits after it has reached ten thousand do not count: it is far
out of any range by then. -/
def exponentValue (digits : List Char) : Nat :=
  digits.foldl (fun n c => if n < 10000 then 10 * n + (hexValue? c).getD 0 else n) 0

/-- The exponent that decimal digits write after an optional sign. -/
def signedExponent (cs : List Char) : Int :=
  let value : Int := exponentValue (withoutSign cs)
  if cs.head? = some '-' then -value else value

/-- The least natural number that a signed integer of 64 bits cannot hold. -/
def signedLimit : Nat := 0x8000000000000000

/-- The number of digits that are looked at before the point of a decimal number. -/
def wholeDigits : Nat := 800

/-- The significant digits of a decimal number, and the place of the point among them, counted from
before the first. Of the part before the point only the leading `wholeDigits` digits count, and
nothing after them. -/
def significant (whole fraction : List Char) : List Char × Int :=
  let whole := whole.dropWhile (· == '0')
  if wholeDigits < whole.length then (whole.take wholeDigits, wholeDigits)
  else if whole.isEmpty then
    let digits := fraction.dropWhile (· == '0')
    (digits, (digits.length : Int) - fraction.length)
  else (whole ++ fraction, whole.length)

/-- Whether a decimal number is nearer to an infinity than to any number of double precision. -/
def exceedsDouble (whole fraction : List Char) (exponent : Int) : Bool :=
  let (digits, point) := significant whole fraction
  let place := point + exponent
  let power := place - digits.length
  let limit := Nat.pow 2 1024 - Nat.pow 2 970
  !digits.isEmpty && (310 < place ||
    (308 < place &&
      limit * Nat.pow 10 (-power).toNat ≤ digitsValue 10 digits * Nat.pow 10 power.toNat))

/-- The number of days of a month. -/
def daysIn (year month : Nat) : Nat :=
  if month = 2 then
    if year % 4 = 0 ∧ (year % 100 ≠ 0 ∨ year % 400 = 0) then 29 else 28
  else if [4, 6, 9, 11].contains month then 30
  else 31

/-- Whether a year, a month and a day are a date. -/
def isDate (year month day : Nat) : Bool :=
  1 ≤ month && month ≤ 12 && 1 ≤ day && day ≤ daysIn year month

end NodeFamily.Text
