import NodeFamily.Text.Quoted

/-!
# Flags

A command line is made of arguments. One that begins with two dashes names a flag, and one that
begins with a single dash names flags by single letters, of which the last may take a value; what
comes after a lone double dash is no flag. `parse` reads the arguments of a command that has given
flags, and `strip` finds out what is left without them where the flags are not all known yet.
-/

namespace NodeFamily.CommandLine

/-- What a flag takes. -/
inductive FlagKind
  /-- A text, of which the last one given counts. -/
  | text
  /-- Any number of texts. -/
  | texts
  /-- A truth value, which may be left out to mean true. -/
  | switch
deriving DecidableEq, Repr

/-- A flag. -/
structure Flag where
  /-- Its name. -/
  name : String
  /-- Its letter. -/
  letter? : Option Char := none
  /-- What it takes. -/
  kind : FlagKind
  /-- What it is for. -/
  purpose : String
deriving DecidableEq, Repr

/-- What is wrong with arguments. -/
inductive FlagError
  | badForm (argument : String)
  | unknownName (name : String)
  /-- An unknown letter at the front of what is left of an argument. -/
  | unknownLetter (letters : String)
  | nameNeedsValue (argument : String)
  /-- A letter without its value at the front of what is left of an argument. -/
  | letterNeedsValue (letters : String)
  | notBoolean (value : String) (flag : Flag)
deriving DecidableEq, Repr

namespace FlagError

/-- The character with the number of the first octet of a text's encoding. -/
def firstOctet (s : String) : Char :=
  match s.toList with
  | [] => '\x00'
  | c :: _ =>
    let n := c.toNat
    Char.ofNat (if n < 0x80 then n
      else if n < 0x800 then 0xC0 + n / 0x40
      else if n < 0x10000 then 0xE0 + n / 0x1000
      else 0xF0 + n / 0x40000)

/-- The forms of a flag that may be written. -/
def forms (f : Flag) : String :=
  match f.letter? with
  | some c => "-" ++ String.singleton c ++ ", --" ++ f.name
  | none => "--" ++ f.name

/-- The error in words. -/
def message : FlagError → String
  | .badForm a => "bad flag syntax: " ++ a
  | .unknownName n => "unknown flag: --" ++ n
  | .unknownLetter ls =>
    "unknown shorthand flag: " ++ Text.quoteChar (firstOctet ls) ++ " in -" ++ ls
  | .nameNeedsValue a => "flag needs an argument: " ++ a
  | .letterNeedsValue ls =>
    "flag needs an argument: " ++ Text.quoteChar (firstOctet ls) ++ " in -" ++ ls
  | .notBoolean v f =>
    "invalid argument " ++ Text.quote v ++ " for " ++ Text.quote (forms f) ++
      " flag: strconv.ParseBool: parsing " ++ Text.quote v ++ ": invalid syntax"

end FlagError

/-- The truth value that a text is. -/
def boolean? (s : String) : Option Bool :=
  if ["1", "t", "T", "TRUE", "true", "True"].contains s then some true
  else if ["0", "f", "F", "FALSE", "false", "False"].contains s then some false
  else none

/-- A value given to a flag. -/
structure Assignment where
  /-- The name of the flag. -/
  name : String
  /-- The value. -/
  value : String
deriving DecidableEq, Repr

/-- What arguments say. -/
structure Arguments where
  /-- The values given to flags, in order. -/
  assignments : List Assignment := []
  /-- The arguments that belong to no flag. -/
  operands : List String := []
deriving DecidableEq, Repr

namespace Arguments

/-- The values given to a flag, in order. -/
def values (a : Arguments) (name : String) : List String :=
  (a.assignments.filter (·.name = name)).map (·.value)

/-- The last value given to a flag, or the empty text. -/
def value (a : Arguments) (name : String) : String := (a.values name).getLastD ""

/-- Whether a flag is on. -/
def isOn (a : Arguments) (name : String) : Bool := boolean? (a.value name) == some true

end Arguments

namespace Flag

/-- Whether the value of a flag may be left out. -/
def isOptional (f : Flag) : Bool := f.kind = .switch

/-- The flag with a name. -/
def named? (flags : List Flag) (name : String) : Option Flag := flags.find? (·.name = name)

/-- The flag with a letter. -/
def lettered? (flags : List Flag) (c : Char) : Option Flag := flags.find? (·.letter? = some c)

/-- Gives a flag a value. -/
def assign (f : Flag) (value : String) : Except FlagError Assignment :=
  if f.kind = .switch && (boolean? value).isNone then .error (.notBoolean value f)
  else .ok ⟨f.name, value⟩

/-- How the text after a dash begins that is meant for a test of the program. -/
def testMark : List Char := "test.".toList

/-- Reads the letters after a single dash. `next?` is the argument after them. The answer says
whether that is the value of the last letter. What is meant for a test of the program is passed
over. -/
def parseLetters (flags : List Flag) (next? : Option String) :
    List Char → Except FlagError (List Assignment × Bool)
  | [] => .ok ([], false)
  | c :: more =>
    if testMark.isPrefixOf (c :: more) then .ok ([], false)
    else match lettered? flags c with
    | none => .error (.unknownLetter (String.ofList (c :: more)))
    | some f =>
      if more.head? = some '=' && 2 ≤ more.length then
        (f.assign (String.ofList more.tail)).map fun a => ([a], false)
      else if f.isOptional then do
        let a ← f.assign "true"
        let (as, used) ← parseLetters flags next? more
        return (a :: as, used)
      else if !more.isEmpty then
        (f.assign (String.ofList more)).map fun a => ([a], false)
      else match next? with
        | some value => (f.assign value).map fun a => ([a], true)
        | none => .error (.letterNeedsValue (String.ofList (c :: more)))

/-- Reads what follows two dashes, up to a sign of equality if there is one. -/
def parseName (flags : List Flag) (next? : Option String) (argument : String) :
    Except FlagError (List Assignment × Bool) :=
  let text := argument.toList.drop 2
  if text.head? = some '-' || text.head? = some '=' then .error (.badForm argument)
  else
    let name := text.takeWhile (· ≠ '=')
    match named? flags (String.ofList name) with
    | none => .error (.unknownName (String.ofList name))
    | some f =>
      if name.length < text.length then
        (f.assign (String.ofList (text.drop (name.length + 1)))).map fun a => ([a], false)
      else if f.isOptional then (f.assign "true").map fun a => ([a], false)
      else match next? with
        | some value => (f.assign value).map fun a => ([a], true)
        | none => .error (.nameNeedsValue argument)

/-- Reads arguments. -/
def parse (flags : List Flag) : List String → Except FlagError Arguments
  | [] => .ok {}
  | argument :: rest =>
    if argument = "--" then .ok { operands := rest }
    else if argument.toList.head? ≠ some '-' || argument = "-" then
      (parse flags rest).map fun a => { a with operands := argument :: a.operands }
    else do
      let (as, used) ←
        if argument.toList.take 2 = ['-', '-'] then parseName flags rest.head? argument
        else parseLetters flags rest.head? (argument.toList.drop 1)
      let a ← parse flags (rest.drop (if used then 1 else 0))
      return { a with assignments := as ++ a.assignments }
termination_by arguments => arguments.length
decreasing_by all_goals simp only [List.length_drop, List.length_cons]; omega

/-- Whether an argument names a flag whose value is the next argument, as far as the flags are
known: an unknown one counts as such. -/
def takesNext (flags : List Flag) (argument : String) : Bool :=
  match argument.toList with
  | '-' :: '-' :: name =>
    !name.contains '=' && !(named? flags (String.ofList name)).any (·.isOptional)
  | ['-', c] => c ≠ '=' && c.utf8Size = 1 && !(lettered? flags c).any (·.isOptional)
  | _ => false

/-- The arguments that are neither flags nor their values, as far as the flags are known. A flag
that takes the last argument but one ends the search. -/
def strip (flags : List Flag) : List String → List String
  | [] => []
  | argument :: rest =>
    if argument = "--" then []
    else if takesNext flags argument then
      match rest with
      | [] => []
      | [_] => []
      | _ :: rest => strip flags rest
    else if argument ≠ "" && argument.toList.head? ≠ some '-' then argument :: strip flags rest
    else strip flags rest

/-- The arguments without the first one that is `name` and neither a flag nor the value of one. -/
def without (flags : List Flag) (name : String) : List String → List String
  | [] => []
  | argument :: rest =>
    if argument = "--" then argument :: rest
    else if takesNext flags argument then
      match rest with
      | [] => [argument]
      | value :: rest => argument :: value :: without flags name rest
    else if argument = name then rest
    else argument :: without flags name rest

end Flag

end NodeFamily.CommandLine
