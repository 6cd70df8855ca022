import NodeFamily.Identifier
import NodeFamily.Text.Blank
import NodeFamily.Text.Cut

/-!
# Build constraints

A comment may say under which tags a file is built, in a newer form, `//go:build`, with operators
and parentheses, or in an older one, `// +build`, where a blank means or and a comma means and. Both
are read into a `Constraint` and written from one.
-/

namespace NodeFamily.Layout

/-- A condition on build tags. -/
inductive Constraint
  | tag (name : String)
  | not (x : Constraint)
  | and (x y : Constraint)
  | or (x y : Constraint)
deriving DecidableEq, Repr

namespace Constraint

/-- Whether a character may stand in a tag. -/
def isTagPart (c : Char) : Bool := Text.isLetter c || Text.isDigit c || c == '_' || c == '.'

/-- Puts a text in parentheses if asked to. -/
def enclosed (inParens : Bool) (s : String) : String := if inParens then "(" ++ s ++ ")" else s

/-- Whether a condition is a disjunction. -/
def isOr : Constraint → Bool
  | .or _ _ => true
  | _ => false

/-- Whether a condition is a conjunction. -/
def isAnd : Constraint → Bool
  | .and _ _ => true
  | _ => false

/-- A condition in the newer form. -/
def render : Constraint → String
  | .tag name => name
  | .not x => "!" ++ enclosed (x.isAnd || x.isOr) x.render
  | .and x y => enclosed x.isOr x.render ++ " && " ++ enclosed y.isOr y.render
  | .or x y => enclosed x.isAnd x.render ++ " || " ++ enclosed y.isAnd y.render

/-- The characters after a mark and what separates it from them, trimmed; nothing when the mark is
not there. What follows the mark directly is no part of it. -/
def afterMark? (mark : List Char) (cs : List Char) : Option (List Char) :=
  if !mark.isPrefixOf cs then none
  else
    let rest := Text.dropEndWhile Text.isBlank (cs.drop mark.length)
    let trimmed := rest.dropWhile Text.isBlank
    if rest.length == trimmed.length && !trimmed.isEmpty then none else some trimmed

/-- The condition in a comment of the newer form, as characters. -/
def newForm? (comment : List Char) : Option (List Char) := afterMark? "//go:build".toList comment

/-- The condition in a comment of the older form, as characters. -/
def oldForm? (comment : List Char) : Option (List Char) :=
  if !"//".toList.isPrefixOf comment then none
  else afterMark? "+build".toList (Text.trimChars (comment.drop 2))

/-- A sign or a tag of the newer form. -/
inductive Part
  | sign (text : String)
  | tag (name : String)
deriving DecidableEq, Repr

/-- The part at the front, if there is one, and the rest. Nothing when the text is malformed. -/
def part? (cs : List Char) : Option (Option Part × List Char) :=
  match cs.dropWhile (fun c => c == ' ' || c == '\t') with
  | [] => some (none, [])
  | '&' :: '&' :: rest => some (some (.sign "&&"), rest)
  | '|' :: '|' :: rest => some (some (.sign "||"), rest)
  | c :: rest =>
    if c == '(' || c == ')' || c == '!' then some (some (.sign (String.singleton c)), rest)
    else
      let name := (c :: rest).takeWhile isTagPart
      if name.isEmpty then none
      else some (some (.tag (String.ofList name)), (c :: rest).drop name.length)

/-- A condition that is read, the part after it and the rest. -/
abbrev Read := Constraint × Option Part × List Char

mutual

/-- Reads a disjunction. -/
def readOr? : (fuel : Nat) → List Char → Option Read
  | 0, _ => none
  | fuel + 1, cs => (readAnd? fuel cs).bind fun (x, next, rest) => moreOr? fuel x next rest

/-- Reads the rest of a disjunction. -/
def moreOr? : (fuel : Nat) → Constraint → Option Part → List Char → Option Read
  | 0, _, _, _ => none
  | fuel + 1, x, next, rest =>
    if next == some (.sign "||") then
      (readAnd? fuel rest).bind fun (y, next, rest) => moreOr? fuel (.or x y) next rest
    else some (x, next, rest)

/-- Reads a conjunction. -/
def readAnd? : (fuel : Nat) → List Char → Option Read
  | 0, _ => none
  | fuel + 1, cs => (readNot? fuel cs).bind fun (x, next, rest) => moreAnd? fuel x next rest

/-- Reads the rest of a conjunction. -/
def moreAnd? : (fuel : Nat) → Constraint → Option Part → List Char → Option Read
  | 0, _, _, _ => none
  | fuel + 1, x, next, rest =>
    if next == some (.sign "&&") then
      (readNot? fuel rest).bind fun (y, next, rest) => moreAnd? fuel (.and x y) next rest
    else some (x, next, rest)

/-- Reads a tag or a condition in parentheses, negated or not. -/
def readNot? : (fuel : Nat) → List Char → Option Read
  | 0, _ => none
  | fuel + 1, cs =>
    (part? cs).bind fun (next, rest) =>
      if next == some (.sign "!") then
        (part? rest).bind fun (next, rest) =>
          (readAtom? fuel next rest).map fun (x, next, rest) => (.not x, next, rest)
      else readAtom? fuel next rest

/-- Reads a tag or a condition in parentheses from its first part on. -/
def readAtom? : (fuel : Nat) → Option Part → List Char → Option Read
  | 0, _, _ => none
  | fuel + 1, next, rest =>
    match next with
    | some (.tag name) => (part? rest).map fun (next, rest) => (.tag name, next, rest)
    | some (.sign "(") =>
      (readOr? fuel rest).bind fun (x, next, rest) =>
        if next == some (.sign ")") then
          (part? rest).map fun (next, rest) => (x, next, rest)
        else none
    | _ => none

end

/-- The most conditions that one of the newer form may have. -/
def newLimit : Nat := 1000

/-- The number of tags and parentheses in a condition of the newer form. -/
def operandCount (cs : List Char) : Nat :=
  cs.foldl (fun (n, inTag) c =>
    if isTagPart c then (if inTag then (n, true) else (n + 1, true))
    else (if c == '(' then n + 1 else n, false)) ((0, false) : Nat × Bool) |>.1

/-- The condition that a text in the newer form starts with. What follows it is not looked at. -/
def ofNewForm? (cs : List Char) : Option Constraint :=
  if operandCount cs > newLimit then none
  else (readOr? (6 * cs.length + 6) cs).map Prod.fst

/-- The most operators that a condition in the older form may have. -/
def oldLimit : Nat := 100

/-- One literal of the older form. A malformed one stands for a tag that is never set. -/
def ofOldLiteral (cs : List Char) : Constraint :=
  let read (name : List Char) : Constraint :=
    if !name.isEmpty && name.all isTagPart then .tag (String.ofList name) else .tag "ignore"
  match cs with
  | ['!'] => .tag "ignore"
  | '!' :: '!' :: _ => .tag "ignore"
  | '!' :: name => .not (read name)
  | name => read name

/-- Joins conditions from the left. -/
def joined? (op : Constraint → Constraint → Constraint) : List Constraint → Option Constraint
  | [] => none
  | x :: xs => some (xs.foldl op x)

/-- The condition that a text in the older form is. -/
def ofOldForm? (cs : List Char) : Option Constraint :=
  let clauses := (Text.wordsFrom [] cs).map fun w => (Text.cutAt ',' w).map ofOldLiteral
  let count := clauses.foldl (fun n c => n + c.length) 0
  if count > oldLimit + 1 then none
  else some ((joined? .or (clauses.filterMap (joined? .and))).getD (.tag "ignore"))

/-- The condition that a comment states, if it states one. -/
def ofComment? (comment : List Char) : Option Constraint :=
  match newForm? comment with
  | some text => ofNewForm? text
  | none => (oldForm? comment).bind ofOldForm?

/-- A condition with its negations moved to the tags, itself negated if asked to. -/
def pushNot : (negated : Bool) → Constraint → Constraint
  | negated, .tag name => if negated then .not (.tag name) else .tag name
  | negated, .not x => pushNot (!negated) x
  | negated, .and x y =>
    if negated then .or (pushNot true x) (pushNot true y)
    else .and (pushNot false x) (pushNot false y)
  | negated, .or x y =>
    if negated then .and (pushNot true x) (pushNot true y)
    else .or (pushNot false x) (pushNot false y)

/-- The parts of a conjunction. -/
def conjuncts : Constraint → List Constraint
  | .and x y => x.conjuncts ++ y.conjuncts
  | x => [x]

/-- The parts of a disjunction. -/
def disjuncts : Constraint → List Constraint
  | .or x y => x.disjuncts ++ y.disjuncts
  | x => [x]

/-- Whether a condition is a tag or its negation. -/
def isLiteral : Constraint → Bool
  | .tag _ | .not _ => true
  | _ => false

/-- The comments of the older form that state a condition together. -/
def oldLines (x : Constraint) : List String :=
  let split := (pushNot false x).conjuncts.map fun y => y.disjuncts.map conjuncts
  if !split.all (fun ors => ors.all fun ands => ands.all isLiteral) then
    ["// +build error: expression too complex for // +build lines"]
  else
    let split := if split.all (·.length == 1) then [[split.flatten.flatten]] else split
    split.map fun ors =>
      "// +build" ++ String.join (ors.map fun ands => " " ++ ",".intercalate (ands.map render))

end Constraint

end NodeFamily.Layout
