/-!
# Characters as octets

A character is encoded in one to four octets. The first one says how many there are, and the others
hold six bits each.
-/

namespace NodeFamily.Text

/-- The number of octets of a character by its first one, and what that octet holds of it. -/
def leadOctet? (first : Nat) : Option (Nat × Nat) :=
  if first < 0x80 then some (1, first)
  else if first / 0x20 = 6 then some (2, first % 0x20)
  else if first / 0x10 = 14 then some (3, first % 0x10)
  else if first / 8 = 30 then some (4, first % 8)
  else none

/-- Whether an octet continues a character. -/
def continuesChar (octet : Nat) : Bool := octet / 0x40 == 2

/-- The least number of a character that takes `n` octets. -/
def leastCode (n : Nat) : Nat :=
  if n ≤ 1 then 0 else if n = 2 then 0x80 else if n = 3 then 0x800 else 0x10000

/-- The character that octets begin with, after their first one, and how many more it takes. -/
def charAfter? (first : Nat) (rest : List Nat) : Option (Char × Nat) :=
  (leadOctet? first).bind fun (n, value) =>
    let more := rest.take (n - 1)
    let code := more.foldl (fun v o => 0x40 * v + o % 0x40) value
    if more.length = n - 1 ∧ more.all continuesChar ∧ leastCode n ≤ code ∧ code.isValidChar then
      some (Char.ofNat code, n - 1)
    else none

/-- The characters that octets encode. An octet that is not part of a character is replaced. -/
def decodeOctets : List Nat → List Char
  | [] => []
  | first :: rest =>
    match charAfter? first rest with
    | some (c, more) => c :: decodeOctets (rest.drop more)
    | none => '\ufffd' :: decodeOctets rest
termination_by octets => octets.length
decreasing_by all_goals simp only [List.length_drop, List.length_cons]; omega

end NodeFamily.Text
