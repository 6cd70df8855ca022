import NodeFamily.Text.Blank
import NodeFamily.Text.CaseShift
import NodeFamily.Text.Cut
import NodeFamily.Text.Letter
import NodeFamily.Text.Lowercase
import NodeFamily.Text.Numeral

/-!
# The text of documentation comments

A comment right above a declaration is laid out anew: it is cut into paragraphs, headings, lists and
code, and each is written in one way. Code is indented by a tab, a list by blanks, and empty lines
stand between the parts.
-/

namespace NodeFamily.Layout.DocText

/-- A line of text. -/
abbrev Line := List Char

/-- The blanks at the start of a line. -/
def indentation (line : Line) : Line := line.takeWhile fun c => c == ' ' || c == '\t'

/-- Whether a line is indented. -/
def isIndented (line : Line) : Bool := !(indentation line).isEmpty

/-- The longest start that two lines share. -/
def sharedStart : Line → Line → Line
  | a :: as, b :: bs => if a == b then a :: sharedStart as bs else []
  | _, _ => []

/-- Lines without the empty ones at both ends. -/
def withoutOuterEmpty (lines : List Line) : List Line :=
  ((lines.dropWhile List.isEmpty).reverse.dropWhile List.isEmpty).reverse

/-- Lines without the indentation that they share, lines of white space being empty. -/
def unindent (lines : List Line) : List Line :=
  match withoutOuterEmpty lines with
  | [] => []
  | first :: rest =>
    let shared := rest.foldl (fun shared line =>
      if line.isEmpty then shared else sharedStart shared (indentation line)) (indentation first)
    let cut (line : Line) : Line :=
      let line := if shared.isPrefixOf line then line.drop shared.length else line
      if line.all Text.isBlank then [] else line
    withoutOuterEmpty ((first :: rest).map cut)

/-- The number and the text of an item of a list; the number is empty when the item has a bullet. -/
def item? (line : Line) : Option (Line × Line) :=
  let found : Option (Line × Line) := match Text.trimChars line with
    | [] => none
    | c :: rest =>
      if ['•', '*', '+', '-'].contains c then some ([], rest)
      else if c.isDigit then
        let number := (c :: rest).takeWhile Char.isDigit
        match (c :: rest).drop number.length with
        | d :: rest => if d == '.' || d == ')' then some (number, rest) else none
        | [] => none
      else none
  found.bind fun (number, rest) =>
    if isIndented rest && !rest.all Text.isBlank then some (number, rest) else none

/-- Whether a line is an item of a list. -/
def isItem (line : Line) : Bool := (item? line).isSome

/-- Whether a line is marked as a heading. -/
def isMarkedHeading : Line → Bool
  | '#' :: c :: rest => (c == ' ' || c == '\t') && !rest.all Text.isBlank
  | _ => false

/-- Whether every occurrence of a character is followed by what `fits`. -/
def everyFollowed (c : Char) (fits : Line → Bool) : Line → Bool
  | [] => true
  | d :: rest => (d != c || fits rest) && everyFollowed c fits rest

/-- Whether a line between empty ones reads as a heading: it starts with a capital letter, ends with
a letter or a digit and has no punctuation of a sentence. -/
def readsAsHeading (line : Line) : Bool :=
  let line := Text.trimChars line
  let isUpper (c : Char) := Text.isLetter c && c != Text.lowerChar c
  let signs := ";:!?+*/=[]\x7b\x7d_^°&§~%#@<\x22>\\".toList
  line.head?.any isUpper && line.getLast?.any (fun c => Text.isLetter c || Text.isDigit c) &&
    !line.any signs.contains &&
    everyFollowed '\x27' (fun rest => rest == ['s'] || ['s', ' '].isPrefixOf rest) line &&
    everyFollowed '.' (fun rest => !rest.isEmpty && rest.head? != some ' ') line

/-- A part of a comment. -/
inductive Part
  | paragraph (lines : List Line)
  | heading (text : Line)
  | code (lines : List Line)
  /-- A list with the number and the paragraphs of each item, and whether empty lines stand before
  it and between its items. -/
  | list (items : List (Line × List (List Line))) (before between : Bool)
deriving DecidableEq, Repr

/-- The items of a list from its lines; `items` are those before, backwards with the paragraphs and
lines of the last backwards too. Also whether an empty line stands in it. -/
def itemsFrom (numbered : Bool) (items : List (Line × List (List Line))) (between : Bool) :
    List Line → List (Line × List (List Line)) × Bool
  | [] =>
    let tidy (paragraphs : List (List Line)) :=
      (paragraphs.filter (!·.isEmpty)).reverse.map List.reverse
    (items.reverse.map fun (number, ps) => (number, tidy ps), between)
  | line :: rest =>
    let add (text : Line) (items : List (Line × List (List Line))) :=
      match items with
      | (number, p :: ps) :: more => (number, (text :: p) :: ps) :: more
      | items => items
    match item? line with
    | some (number, text) =>
      if !number.isEmpty == numbered then
        itemsFrom numbered ((number, [[Text.trimChars text]]) :: items) between rest
      else itemsFrom numbered (add (Text.trimChars line) items) between rest
    | none =>
      if line.all Text.isBlank then
        let items := match items with
          | (number, ps) :: more => (number, [] :: ps) :: more
          | [] => []
        itemsFrom numbered items true rest
      else itemsFrom numbered (add (Text.trimChars line) items) between rest

/-- The part that indented lines make up. -/
def indentedPart (lines : List Line) (before : Bool) : Part :=
  match lines with
  | [] => .code []
  | first :: _ =>
    match item? first with
    | some (number, _) =>
      let (items, between) := itemsFrom (!number.isEmpty) [] false lines
      .list items before between
    | none => .code (unindent lines)

/-- The lines at the front that are empty or indented, of which the next `forced` count as indented.
If asked for, items of a list that are not indented belong to them up to the first empty line. -/
def indentedRun : (forced : Nat) → (items : Bool) → List Line → List Line
  | _, _, [] => []
  | forced, items, line :: rest =>
    if line.isEmpty then line :: indentedRun (forced - 1) false rest
    else if forced > 0 || isIndented line || (items && isItem line) then
      line :: indentedRun (forced - 1) items rest
    else []

/-- Cuts lines into parts. `before` are the lines read, backwards; the next `forced` lines count as
indented, and `gap` says whether an empty line stands before them. -/
def partsFrom : (fuel : Nat) → (before : List Line) → (forced : Nat) → (gap : Bool) → List Line →
    List Part
  | 0, _, _, _, _ => []
  | _ + 1, _, _, _, [] => []
  | fuel + 1, before, forced, _, [] :: rest =>
    partsFrom fuel ([] :: before) (forced - 1) true rest
  | fuel + 1, before, forced, gap, first :: rest =>
    let lines := first :: rest
    if forced > 0 || isIndented first then
      let inside := indentedRun forced (forced > 0 && isItem first) lines
      let body := (inside.reverse.dropWhile List.isEmpty).reverse
      let body := match lines.drop body.length with
        | next :: _ => if next.head? == some '\x7d' then body ++ [next] else body
        | [] => body
      indentedPart body gap ::
        partsFrom fuel (body.reverse ++ before) (forced - body.length) false
          (lines.drop body.length)
    else
      let inside := lines.takeWhile fun line => !line.isEmpty && !isIndented line
      let after := lines.drop inside.length
      let last := inside.getLast?.getD []
      let opens := match after with
        | next :: _ => !next.isEmpty && !isItem next
        | [] => false
      let kept :=
        if !opens then inside.length
        else if isItem last then (inside.reverse.dropWhile isItem).length
        else if last.getLast? == some '\x7b' || last.getLast? == some '\\' then inside.length - 1
        else inside.length
      let body := inside.take kept
      let rest := lines.drop kept
      let next := partsFrom fuel (body.reverse ++ before) (inside.length - kept) false rest
      match body with
      | [] => next
      | [line] =>
        if isMarkedHeading line then .heading (Text.trimChars (line.drop 1)) :: next
        else
          let alone := !before.isEmpty && before.head? == some [] &&
            (match rest with
            | [] :: following :: _ => !isIndented following
            | _ => false)
          if alone && readsAsHeading line then .heading (Text.trimChars line) :: next
          else .paragraph body :: next
      | _ => .paragraph body :: next

/-- Whether the mark after a scheme stands somewhere in an address. -/
def hasScheme : Line → Bool
  | ':' :: '/' :: '/' :: _ => true
  | _ :: rest => hasScheme rest
  | [] => false

/-- Whether a line defines a link, as `[text]: address`. -/
def definesLink (line : Line) : Bool :=
  match line with
  | '[' :: rest =>
    let text := rest.takeWhile (· != ']')
    match rest.drop text.length with
    | ']' :: ':' :: c :: address =>
      !text.isEmpty && (c == ' ' || c == '\t') && hasScheme address &&
        !(address.dropWhile Text.isBlank).any Text.isBlank
    | _ => false
  | _ => false

/-- A text in which two grave accents or two apostrophes are quotes. -/
def withQuotes : Line → Line
  | '\x60' :: '\x60' :: '\x60' :: rest => '\x60' :: '\x60' :: '\x60' :: withQuotes rest
  | '\x60' :: '\x60' :: rest => '“' :: withQuotes rest
  | '\x27' :: '\x27' :: rest => '”' :: withQuotes rest
  | c :: rest => c :: withQuotes rest
  | [] => []

/-- The lines of an item of a list. -/
def renderItem (number : Line) (paragraphs : List (List Line)) : List Line :=
  let mark := if number.isEmpty then "  - ".toList else ' ' :: number ++ ". ".toList
  let spaces := "    ".toList
  let indented (lines : List Line) := lines.map fun line => spaces ++ withQuotes line
  match paragraphs with
  | [] => [mark]
  | p :: ps =>
    let first := match p with
      | [] => [mark]
      | line :: more => (mark ++ withQuotes line) :: indented more
    first ++ ps.flatMap fun q => [] :: indented q

/-- Whether an empty line stands before a part that is not the first. -/
def Part.standsApart : Part → Bool
  | .list items before between => before || between || items.any (·.2.length != 1)
  | _ => true

/-- The lines of a part. -/
def Part.render : Part → List Line
  | .paragraph lines => lines.map withQuotes
  | .heading text => ["# ".toList ++ text]
  | .code lines => lines.map fun line => if line.isEmpty then [] else '\t' :: line
  | .list items _ between =>
    let loose := between || items.any (·.2.length != 1)
    let rendered := items.map fun (number, ps) => renderItem number ps
    if loose then List.intercalate [[]] rendered else rendered.flatten

/-- The lines of a comment's text as they are laid out. Links that lines define come last. -/
def layOut (lines : List Line) : List Line :=
  let lines := unindent lines
  let parts := partsFrom (2 * lines.length + 2) [] 0 false lines
  let isLinks : Part → Bool
    | .paragraph ls => ls.all definesLink
    | _ => false
  let links := (parts.filter isLinks).flatMap Part.render
  let parts := parts.filter (!isLinks ·)
  let body := match parts with
    | [] => []
    | p :: ps =>
      p.render ++ ps.flatMap fun q => if q.standsApart then [] :: q.render else q.render
  if links.isEmpty then body else body ++ [] :: links

end NodeFamily.Layout.DocText
