import NodeFamily.Layout.DocText
import NodeFamily.Layout.Token

/-!
# The text of comments

How the layout changes the text of a comment: `alignLines` takes away what the lines of a comment in
marks have in common at their start, and `layOutGroup` lays out a group of comments above a
declaration as documentation.
-/

namespace NodeFamily.Layout

/-- Whether a line has nothing but blanks and control characters. -/
def isBare (line : List Char) : Bool := line.all (· ≤ ' ')

/-- The start that two lines share, as far as it has only blanks and stars. -/
def sharedMargin : List Char → List Char → List Char
  | a :: as, b :: bs => if a == b && (a ≤ ' ' || a == '*') then a :: sharedMargin as bs else []
  | _, _ => []

/-- A text without an ending, if it has it. -/
def withoutEnd (ending cs : List Char) : List Char :=
  if ending.reverse.isPrefixOf cs.reverse then cs.take (cs.length - ending.length) else cs

/-- What the first line of a comment in marks tells about the margin of the others: the text after
the opening mark stands as far in as theirs, so what corresponds to it is no margin. -/
def marginAfter (first margin : List Char) : List Char :=
  let text := first.drop 2
  if isBare text then
    let blanks := ((margin.reverse.takeWhile (· == ' ')).take 3).length
    if blanks > 0 then margin.take (margin.length - blanks)
    else if margin.getLast? == some '\t' then margin.dropLast
    else margin
  else
    let gap := text.takeWhile (· ≤ ' ')
    let ending := if gap.head? == some '\t' then gap else ' ' :: ' ' :: gap
    withoutEnd ending margin

/-- What stands before the closing mark. -/
def beforeClosing : List Char → List Char
  | '*' :: '/' :: _ => []
  | c :: rest => c :: beforeClosing rest
  | [] => []

/-- The lines of a comment in marks without the margin that they share. A column of stars stays. -/
def alignLines (lines : List (List Char)) : List (List Char) :=
  match lines with
  | first :: second :: more =>
    let rest := second :: more
    let last := rest.getLast?.getD []
    let inner := rest.dropLast.map fun line => if isBare line then [] else line
    let margin := match inner.filter (!·.isEmpty) with
      | [] => sharedMargin last last
      | line :: others => others.foldl sharedMargin (sharedMargin line line)
    let starred := margin.contains '*'
    let margin :=
      if starred then withoutEnd [' '] (margin.takeWhile (· != '*')) else marginAfter first margin
    let closes := isBare (beforeClosing last)
    let margin := if closes then margin else sharedMargin margin last
    let cut (line : List Char) := line.drop margin.length
    let ending := if closes then (if starred then " */".toList else "*/".toList) else cut last
    first :: inner.map cut ++ [ending]
  | lines => lines

/-- Whether the text of a line comment, without its mark, is meant for a tool. -/
def isDirective (text : List Char) : Bool :=
  let isPlain (c : Char) := ('a' ≤ c && c ≤ 'z') || c.isDigit
  if ["line ", "extern ", "export "].any fun w => w.toList.isPrefixOf text then true
  else
    let word := text.takeWhile (· != ':')
    !word.isEmpty && word.all isPlain && (text[word.length + 1]?).any isPlain

/-- Whether every line of a comment in marks after the first starts with a star. -/
def hasStars (text : List Char) : Bool :=
  ((Text.cutAt '\n' text).drop 1).all fun line =>
    (line.dropWhile fun c => c == ' ' || c == '\t').head?.all (· == '*')

/-- A line of documentation as a comment. -/
def docLine (line : List Char) : String :=
  match line with
  | [] => "//"
  | c :: _ => String.ofList (if c == '\t' then '/' :: '/' :: line else '/' :: '/' :: ' ' :: line)

/-- Lays out line comments as documentation. Those meant for a tool go to the end. -/
def layOutLines (group : List Comment) (pos : Nat) : List Comment :=
  let texts := group.map fun c => c.text.toList.drop 2
  let (tools, words) := texts.partition isDirective
  if words.isEmpty then group
  else
    let lines := words.map fun t => if t.head? == some ' ' then t.drop 1 else t
    match DocText.layOut lines with
    | [] => []
    | body =>
      let tools := if tools.isEmpty then []
        else "//" :: tools.map fun t => String.ofList ('/' :: '/' :: t)
      (body.map docLine ++ tools).map fun text => ⟨pos, text⟩

/-- Lays out a group of comments as documentation. It may leave none. -/
def layOutGroup (group : List Comment) : List Comment :=
  match group with
  | [] => []
  | first :: rest =>
    if first.isLine then
      if rest.all Comment.isLine then layOutLines group first.pos else group
    else if !rest.isEmpty then group
    else
      let text := first.text.toList
      if !text.contains '\n' || hasStars text then group
      else
        let lines := Text.cutAt '\n' ((text.drop 2).take (text.length - 4))
        match DocText.layOut lines with
        | [] => []
        | body =>
          let text := body.flatMap (· ++ ['\n'])
          [⟨first.pos, String.ofList ("/*\n".toList ++ text ++ "*/".toList)⟩]

end NodeFamily.Layout
