import NodeFamily.Layout.Lexeme

/-!
# Tokens and comment groups

The lexical elements that the grammar sees, apart from the comments around them. Comments on
successive lines make a group. A token knows whether a group ends on the line above it and which
group stands on its line after the token before it, because both belong to a declaration in the
layout.
-/

namespace NodeFamily.Layout

/-- A comment. -/
structure Comment where
  /-- Its position. -/
  pos : Nat
  /-- Its text with the marks. -/
  text : String
deriving DecidableEq, Repr

/-- The position after a comment. -/
def Comment.stop (c : Comment) : Nat := c.pos + octets c.text.toList

/-- Whether a comment goes to the end of its line. -/
def Comment.isLine (c : Comment) : Bool := "//".toList.isPrefixOf c.text.toList

/-- The number of line breaks in a text. -/
def breakCount (cs : List Char) : Nat := cs.foldl (fun n c => if c == '\n' then n + 1 else n) 0

/-- The line breaks that a comment has inside. -/
def Comment.breaks (c : Comment) : Nat := breakCount c.text.toList

/-- A token of the grammar. -/
structure Token where
  /-- The lexical element. -/
  lexeme : Lexeme
  /-- Its position. -/
  pos : Nat
  /-- Whether a comment ends on the line above. -/
  documented : Bool := false
  /-- The comments between the token before and the end of its line, if they are all that stands
  there. -/
  aside : List Comment := []
deriving DecidableEq, Repr

/-- The line of a position as it is counted after the line counts that comments ask for. -/
def shiftedLine (t : LineTable) (shifts : List LineShift) (pos : Nat) : Nat :=
  match (shifts.filter (·.offset < pos)).getLast? with
  | none => t.line pos
  | some shift => shift.line + t.line pos - t.line (shift.offset + 1)

/-- A group of comments at the front: each starts at most `reach` lines after the end of the one
before, the first being on the line `last` or after it by no more. Also the line on which the group
ends, and the rest. -/
def takeGroup (line : Nat → Nat) (reach : Nat) :
    (last : Nat) → List (Nat × Lexeme) → List Comment × Nat × List (Nat × Lexeme)
  | last, (pos, .comment text) :: rest =>
    if line pos ≤ last + reach then
      let c : Comment := ⟨pos, text⟩
      let (more, last, rest) := takeGroup line reach (line pos + c.breaks) rest
      (c :: more, last, rest)
    else ([], last, (pos, .comment text) :: rest)
  | last, items => ([], last, items)

/-- All groups of comments at the front, the line on which the last of them ends, and the rest. -/
def takeGroups (line : Nat → Nat) :
    (fuel : Nat) → List (Nat × Lexeme) → List (List Comment) × Option Nat × List (Nat × Lexeme)
  | fuel + 1, (pos, .comment text) :: rest =>
    let (group, last, rest) := takeGroup line 1 (line pos) ((pos, .comment text) :: rest)
    let (groups, final, rest) := takeGroups line fuel rest
    (group :: groups, final.orElse fun _ => some last, rest)
  | _, items => ([], none, items)

/-- Whether a comment group on the line of the token before it is all that follows that token on its
line; `last` is the line on which the group ends. -/
def endsLine (line : Nat → Nat) (last : Nat) : List (Nat × Lexeme) → Bool
  | (_, .semicolon _) :: _ | (_, .finish) :: _ => true
  | (pos, _) :: _ => line pos != last
  | [] => true

/-- The tokens and the comment groups of lexical elements, after a token at the position `before`,
which is zero at the start. -/
def tokensFrom (line : Nat → Nat) :
    (fuel before : Nat) → List (Nat × Lexeme) → List Token × List (List Comment)
  | 0, _, _ => ([], [])
  | _ + 1, _, [] => ([], [])
  | fuel + 1, before, (pos, l) :: rest =>
    let items := (pos, l) :: rest
    let (beside, last, items) :=
      if before > 0 && line pos == line before then takeGroup line 0 (line pos) items
      else ([], 0, items)
    let aside := if endsLine line last items then beside else []
    let (groups, final, items) := takeGroups line (fuel + 1) items
    let groups := if beside.isEmpty then groups else beside :: groups
    match items with
    | [] => ([], groups)
    | (pos, l) :: rest =>
      let documented := final.any fun n => n + 1 == line pos
      let (tokens, more) := tokensFrom line fuel pos rest
      (⟨l, pos, documented, aside⟩ :: tokens, groups ++ more)

/-- A source text cut into tokens. -/
structure Source where
  /-- Its places. -/
  table : LineTable
  /-- Its tokens, the last of which is its end. -/
  tokens : List Token
  /-- Its comments in groups. -/
  comments : List (List Comment)
deriving Repr

/-- The tokens of a text, or nothing when it is malformed. -/
def Source.ofChars? (cs : List Char) : Option Source :=
  (lexemes? cs).map fun (items, shifts) =>
    let table := LineTable.ofText cs
    let (tokens, comments) := tokensFrom (shiftedLine table shifts) (items.length + 1) 0 items
    ⟨table, tokens, comments⟩

end NodeFamily.Layout
