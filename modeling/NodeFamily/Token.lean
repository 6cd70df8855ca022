import NodeFamily.Text.Blank
import NodeFamily.Text.Letter
import NodeFamily.Text.Numeral

/-!
# Tokens of a declaration

`lex` cuts a declaration into tokens without losing a character: the texts of the tokens, spacing
included, follow one another to the declaration itself. The first rule that applies decides the
token: a word, a colon, a comma, a run of spacing, and else any single character. A word is wider
than an identifier: it may begin with a star, have a dotted tail, and hold numerals of any kind.
-/

namespace NodeFamily

/-- A place in a declaration. -/
structure Position where
  /-- The number of bytes before it. -/
  offset : Nat
  /-- One more than the number of characters before it on its line. -/
  column : Nat
deriving DecidableEq, Repr

namespace Position

/-- The place where a declaration begins. -/
def start : Position := ⟨0, 1⟩

/-- The place after one more character. -/
def step (p : Position) (c : Char) : Position :=
  ⟨p.offset + c.utf8Size, if c = '\n' then 1 else p.column + 1⟩

/-- The place after more characters. -/
def advance (p : Position) (cs : List Char) : Position := cs.foldl step p

end Position

/-- The sort of a token. -/
inductive TokenKind
  /-- A name with an optional star before it and an optional dotted tail. -/
  | word
  | colon
  | comma
  /-- A run of spacing. -/
  | spacing
  /-- A character of no other sort. -/
  | other
deriving DecidableEq, Repr

/-- A piece of a declaration. -/
structure Token where
  /-- Its sort. -/
  kind : TokenKind
  /-- Its characters. -/
  text : String
  /-- Where it begins. -/
  position : Position
deriving DecidableEq, Repr

namespace Token

/-- Whether a character opens a name inside a word. -/
def opensName (c : Char) : Bool := Text.isLetter c || c == '_'

/-- Whether a character continues a name inside a word. -/
def continuesName (c : Char) : Bool := Text.isLetter c || Text.isNumeral c || c == '_'

/-- The length of the name at the front, or zero. -/
def nameExtent : List Char → Nat
  | [] => 0
  | c :: rest => if opensName c then 1 + (rest.takeWhile continuesName).length else 0

/-- The length of the word at the front, or zero. -/
def wordExtent (cs : List Char) : Nat :=
  let star := if cs.head? = some '*' then 1 else 0
  let name := nameExtent (cs.drop star)
  if name = 0 then 0
  else
    let tail := cs.drop (star + name)
    let member := if tail.head? = some '.' then nameExtent tail.tail else 0
    star + name + (if member = 0 then 0 else 1 + member)

/-- The sort of the token that begins with `c`, and how many characters it has after `c`. -/
def front (c : Char) (rest : List Char) : TokenKind × Nat :=
  let extent := wordExtent (c :: rest)
  if extent ≠ 0 then (.word, extent - 1)
  else if c = ':' then (.colon, 0)
  else if c = ',' then (.comma, 0)
  else if Text.isSpacing c then (.spacing, (rest.takeWhile Text.isSpacing).length)
  else (.other, 0)

/-- The tokens of `cs`, of which the first begins at `p`. -/
def lexFrom (p : Position) : List Char → List Token
  | [] => []
  | c :: rest =>
    let sort := front c rest
    let text := c :: rest.take sort.2
    ⟨sort.1, String.ofList text, p⟩ :: lexFrom (p.advance text) (rest.drop sort.2)
termination_by cs => cs.length
decreasing_by simp only [List.length_drop, List.length_cons]; omega

/-- All tokens of a declaration, spacing included. -/
def lex (s : String) : List Token := lexFrom .start s.toList

/-- The tokens that are not spacing. -/
def significant (ts : List Token) : List Token := ts.filter (·.kind ≠ .spacing)

/-- The texts of the tokens one after another. -/
def concat (ts : List Token) : String := String.join (ts.map (·.text))

@[simp]
theorem concat_nil : concat [] = "" := rfl

@[simp]
theorem concat_cons (t : Token) (ts : List Token) : concat (t :: ts) = t.text ++ concat ts := by
  simp [concat, String.join_cons]

/-- The tokens follow one another to the characters they are cut from, wherever these begin. -/
theorem concat_lexFrom (p : Position) (cs : List Char) :
    concat (lexFrom p cs) = String.ofList cs := by
  fun_induction lexFrom p cs with
  | case1 => rfl
  | case2 p c rest sort text ih =>
    rw [concat_cons, ih, ← String.ofList_append]
    simp [text]

/-- No character of a declaration is lost. -/
@[simp]
theorem concat_lex (s : String) : concat (lex s) = s := by
  rw [lex, concat_lexFrom, String.ofList_toList]

end Token

end NodeFamily
