import NodeFamily.Text.Octet
import NodeFamily.Yaml.ScalarText

/-!
# Tokens of a YAML text

`Token.scan` cuts a text into tokens and makes its layout explicit: where a line is indented further
than what holds it a block begins, and where it is indented less blocks end. That a scalar is a key
shows only at the colon after it. Until then its place among the tokens is kept as a `PendingKey`,
and the tokens that make it a key are put in there. A key must be on one line with its colon, at
most `keyReach` characters before it.

Tokens wait in a queue until they are given away, one after the other. A token is given away when
two more are waiting behind it and it is known whether it begins a key (`isReady?`). So where the
scan fails, the tokens that are still waiting are lost, and a token that belongs in front of one
that has been given away comes last.
-/

namespace NodeFamily.Yaml

/-- A piece of a text. -/
inductive Token
  | streamEnd
  /-- The version that the text is written for. -/
  | version (major minor : Nat)
  /-- What a tag handle stands for. -/
  | handle (name value : String)
  | documentStart
  | documentEnd
  | blockSequence
  | blockMapping
  | blockEnd
  | flowSequence
  | flowSequenceEnd
  | flowMapping
  | flowMappingEnd
  /-- The dash before an entry of a block sequence. -/
  | blockEntry
  /-- The comma between entries in brackets. -/
  | flowEntry
  | key
  | value
  | anchor (name : String)
  | alias (name : String)
  | tag (handle suffix : String)
  | scalar (isPlain : Bool) (text : String)
deriving DecidableEq, Repr

/-- A place where a key may begin. -/
structure PendingKey where
  /-- Whether a key may have begun there. -/
  possible : Bool := false
  /-- Whether nothing but a key can be there. -/
  required : Bool := false
  /-- The number of tokens before it. -/
  number : Nat := 0
  /-- The number of characters before it. -/
  index : Nat := 0
  /-- The number of lines before its line. -/
  line : Nat := 0
  /-- The number of characters before it on its line. -/
  column : Nat := 0
deriving Repr

/-- The greatest number of characters from the beginning of a key to its colon. -/
def keyReach : Nat := 1024

/-- The greatest depth of brackets, and of blocks. -/
def nestingLimit : Nat := 10000

/-- Whether a key that began here may still end at a cursor. -/
def PendingKey.reaches (p : PendingKey) (k : Cursor) : Bool :=
  k.line ≤ p.line && k.index ≤ p.index + keyReach

/-- The state of a scan. -/
structure Lexer where
  /-- What is left of the text. -/
  cursor : Cursor
  /-- The tokens that have been given away, the latest first. -/
  given : List Token := []
  /-- How many they are. -/
  count : Nat := 0
  /-- The tokens that are waiting. -/
  queue : List Token := []
  /-- Whether the end of the text has been reached. -/
  ended : Bool := false
  /-- The columns of the open blocks, the innermost first. -/
  indents : List Nat := []
  /-- The key that may have begun inside the innermost brackets. -/
  pending : PendingKey := {}
  /-- The keys that may have begun outside them, one for each pair of brackets, the outermost
  first. -/
  outer : Array PendingKey := #[]
  /-- The tokens that keys may begin with, by their number, with the depth of brackets there. -/
  keyTokens : List (Nat × Nat) := []
  /-- Whether a key may begin here. -/
  keyAllowed : Bool := true

namespace Lexer

/-- How many brackets are open. -/
def depth (s : Lexer) : Nat := s.outer.size

/-- Whether the scan is inside brackets. -/
def inFlow (s : Lexer) : Bool := !s.outer.isEmpty

/-- The key that may have begun at a depth of brackets. -/
def pendingAt? (s : Lexer) (depth : Nat) : Option PendingKey :=
  if depth = s.depth then some s.pending else s.outer[depth]?

/-- The least column of what belongs into the innermost block. -/
def least (s : Lexer) : Nat := (s.indents.head?.map (· + 1)).getD 0

/-- The number of the next token. -/
def nextNumber (s : Lexer) : Nat := s.count + s.queue.length

/-- Adds a token. -/
def emit (s : Lexer) (t : Token) : Lexer := { s with queue := s.queue ++ [t] }

/-- Puts a token in after the first `n` tokens, or last where these are not waiting any more. -/
def emitAt (s : Lexer) (n : Nat) (t : Token) : Lexer :=
  if n < s.count then s.emit t
  else { s with queue := s.queue.take (n - s.count) ++ t :: s.queue.drop (n - s.count) }

/-- Passes `n` characters on the line. -/
def skip (s : Lexer) (n : Nat) : Lexer := { s with cursor := s.cursor.skipBy n }

/-- Says whether a key may come next. -/
def allow (s : Lexer) (allowed : Bool) : Lexer := { s with keyAllowed := allowed }

/-- Forgets that a key may begin with a token. -/
def forgetKeyToken (s : Lexer) (n : Nat) : Lexer :=
  { s with keyTokens := s.keyTokens.filter (·.1 ≠ n) }

/-- Gives up the key that may have begun; fails when it is required. -/
def dropKey? (s : Lexer) : Option Lexer :=
  if !s.pending.possible then some s
  else if s.pending.required then none
  else some ({ s with pending := { s.pending with possible := false } }.forgetKeyToken
    s.pending.number)

/-- A place for a key here. -/
def keyHere (s : Lexer) : PendingKey :=
  { number := s.nextNumber
    index := s.cursor.index
    line := s.cursor.line
    column := s.cursor.column }

/-- Marks that a key may begin here, where one is allowed. It is required where the line is indented
just like its block. -/
def saveKey? (s : Lexer) : Option Lexer :=
  if !s.keyAllowed then some s
  else s.dropKey?.map fun s =>
    let required := !s.inFlow && s.indents.head? == some s.cursor.column
    let s := s.forgetKeyToken s.nextNumber
    { s with
      pending := { s.keyHere with possible := true, required := required }
      keyTokens := (s.nextNumber, s.depth) :: s.keyTokens }

/-- Begins a block at a column, unless the innermost block is there already. The token stands after
the first `n` tokens. -/
def openBlock? (s : Lexer) (column n : Nat) (t : Token) : Option Lexer :=
  if s.inFlow || column < s.least then some s
  else if nestingLimit ≤ s.indents.length then none
  else some { s.emitAt n t with indents := column :: s.indents }

/-- Begins a block at the cursor. -/
def openBlockHere? (s : Lexer) (t : Token) : Option Lexer :=
  s.openBlock? s.cursor.column s.nextNumber t

/-- Ends the blocks whose columns satisfy `p`, outside brackets. -/
def closeBlocks (s : Lexer) (p : Nat → Bool) : Lexer :=
  if s.inFlow then s
  else
    let closed := s.indents.takeWhile p
    { s with
      queue := s.queue ++ closed.map fun _ => Token.blockEnd
      indents := s.indents.drop closed.length }

/-- Ends all blocks, and what may have been a key. -/
def closeAll? (s : Lexer) : Option Lexer :=
  (s.closeBlocks fun _ => true).dropKey?.map (·.allow false)

/-- Passes blanks, comments and line breaks. After a line break outside brackets a key may begin,
and where one may begin a tab is no blank. -/
def skipGaps? : (fuel : Nat) → Lexer → Option Lexer
  | 0, s => some s
  | fuel + 1, s => do
    let tabs := s.inFlow || !s.keyAllowed
    let k ← s.cursor.need? 1
    let k ← k.overMark.need? 1
    let k ← k.passWhile? (fun c => c == ' ' || (tabs && c == '\t')) k.bound
    let k ← if k.char == '#' then k.overComments? k.bound k.index else some k
    let k ← k.need? 2
    if isBreak k.char then
      skipGaps? fuel { s with cursor := k.overBreak, keyAllowed := s.keyAllowed || !s.inFlow }
    else some { s with cursor := k }

/-- Whether a character may follow the name of an anchor. -/
def endsAnchor (c : Char) : Bool := endsWord c || "?:,]\x7d%@`".toList.contains c

/-- Reads an anchor, or an alias. -/
def anchor? (s : Lexer) (make : String → Token) : Option Lexer :=
  (s.cursor.skip.take? isNameChar).bind fun (name, k) =>
    if name.isEmpty || !endsAnchor k.char then none
    else some { s.emit (make (String.ofList name)) with cursor := k }

/-- Whether a character may stand in a tag. -/
def isTagChar (c : Char) : Bool := isNameChar c || ";/?:@&=+$.%!~*'(),[]".toList.contains c

/-- The value of the octet that `%` and two digits in front write. -/
def octet? (k : Cursor) : Option (Nat × Cursor) :=
  (k.need? 3).bind fun k =>
    if k.char != '%' then none
    else (Text.hexNumber? [k.charAt 1, k.charAt 2]).map fun o => (o, k.skipBy 3)

/-- The octets that `n` escapes in front write, which have to continue a character. -/
def moreOctets? : (n : Nat) → Cursor → Option (List Nat × Cursor)
  | 0, k => some ([], k)
  | n + 1, k =>
    (octet? k).bind fun (o, k) =>
      if Text.continuesChar o then (moreOctets? n k).map fun (os, k) => (o :: os, k) else none

/-- The character that the octets written in front are. Octets that belong together and are no
character count as one that is in no known tag. -/
def octetChar? (k : Cursor) : Option (Char × Cursor) :=
  (octet? k).bind fun (first, k) =>
    (Text.leadOctet? first).bind fun (n, _) =>
      (moreOctets? (n - 1) k).map fun (more, k) =>
        (((Text.charAfter? first more).map (·.1)).getD '\ufffd', k)

/-- Reads the characters of a tag. `read` is what has been read, backwards. -/
def tagText? : (fuel : Nat) → (read : List Char) → Cursor → Option (List Char × Cursor)
  | 0, read, k => some (read.reverse, k)
  | fuel + 1, read, k =>
    if k.char == '%' then
      (octetChar? k).bind fun (c, k) => (k.need? 1).bind (tagText? fuel (c :: read))
    else if isTagChar k.char then (k.skip.need? 1).bind (tagText? fuel (k.char :: read))
    else some (read.reverse, k)

/-- Reads the rest of a tag. -/
def tagRest? (k : Cursor) : Option (List Char × Cursor) :=
  (k.need? 1).bind (tagText? k.bound [])

/-- Splits a tag handle off: an exclamation mark, name characters, and a second mark where one
follows. The answer says whether one does. -/
def handleAt? (k : Cursor) : Option (Bool × List Char × Cursor) :=
  (k.need? 1).bind fun k =>
    if k.char != '!' then none
    else (k.skip.take? isNameChar).map fun (name, k) =>
      if k.char == '!' then (true, '!' :: name ++ ['!'], k.skip) else (false, '!' :: name, k)

/-- Reads a tag: its handle, its suffix and what follows. -/
def tagAt? (k : Cursor) : Option (String × String × Cursor) :=
  (k.need? 2).bind fun k =>
    if k.charAt 1 == '<' then
      (tagRest? (k.skipBy 2)).bind fun (tag, k) =>
        if tag.isEmpty || k.char != '>' then none else some ("", String.ofList tag, k.skip)
    else (handleAt? k).bind fun (closed, handle, k) =>
      (tagRest? k).bind fun (suffix, k) =>
        if closed then
          if suffix.isEmpty then none else some (String.ofList handle, String.ofList suffix, k)
        else
          let suffix := handle.drop 1 ++ suffix
          if suffix.isEmpty then some ("", "!", k) else some ("!", String.ofList suffix, k)

/-- Reads a tag. -/
def tag? (s : Lexer) : Option Lexer :=
  (tagAt? s.cursor).bind fun (handle, suffix, k) =>
    (k.need? 1).bind fun k =>
      if endsWord k.char then some { s.emit (.tag handle suffix) with cursor := k } else none

/-- Reads a number of one or two digits. -/
def versionNumber? (k : Cursor) : Option (Nat × Cursor) :=
  (k.take? Char.isDigit).bind fun (digits, k) =>
    if digits.isEmpty || 2 < digits.length then none
    else some (Text.digitsValue 10 digits, k)

/-- Reads what follows the name of a directive. -/
def directiveToken? (name : String) (k : Cursor) : Option (Token × Cursor) :=
  k.overBlanks?.bind fun k =>
    if name = "YAML" then
      (versionNumber? k).bind fun (major, k) =>
        if k.char != '.' then none
        else (versionNumber? k.skip).map fun (minor, k) => (.version major minor, k)
    else if name = "TAG" then
      (handleAt? k).bind fun (closed, handle, k) =>
        (k.need? 1).bind fun k =>
          if (!closed && handle != ['!']) || !isBlank k.char then none
          else k.overBlanks?.bind fun k =>
            (tagRest? k).bind fun (value, k) =>
              (k.need? 1).bind fun k =>
                if value.isEmpty || !endsWord k.char then none
                else some (.handle (String.ofList handle) (String.ofList value), k)
    else none

/-- Reads a directive and the rest of its line. -/
def directive? (s : Lexer) : Option Lexer :=
  (s.cursor.skip.take? isNameChar).bind fun (name, k) =>
    if name.isEmpty || !endsWord k.char then none
    else (directiveToken? (String.ofList name) k).bind fun (t, k) =>
      (k.overBlanks?.bind fun k => if k.char == '#' then k.overLine? else some k).bind fun k =>
        if !endsLine k.char then none
        else k.overBreak?.map fun k => { s.emit t with cursor := k }

/-- Adds a scalar that a reader found. -/
def scalar? (s : Lexer) (isPlain : Bool) (found : Option ScalarText) : Option Lexer :=
  found.map fun t =>
    { s.emit (.scalar isPlain t.text) with
      cursor := t.after
      keyAllowed := s.keyAllowed || t.overLine }

/-- Opens brackets. -/
def openFlow? (s : Lexer) (t : Token) : Option Lexer :=
  s.saveKey?.bind fun s =>
    if nestingLimit ≤ s.depth then none
    else some
      { (s.emit t).skip 1 with
        pending := s.keyHere
        outer := s.outer.push s.pending
        keyAllowed := true }

/-- Closes brackets, or passes a closing one that has no opening one. With the brackets the token is
forgotten that a key inside them may have begun with, or where there was none, the opening one. -/
def closeFlow? (s : Lexer) (t : Token) : Option Lexer :=
  s.dropKey?.map fun s =>
    let s := match s.outer.back? with
      | some pending =>
        { s.forgetKeyToken s.pending.number with pending := pending, outer := s.outer.pop }
      | none => s
    ((s.emit t).skip 1).allow false

/-- The dash before an entry of a block sequence. -/
def dash? (s : Lexer) : Option Lexer :=
  if !s.inFlow && !s.keyAllowed then none
  else (s.openBlockHere? .blockSequence).bind fun s =>
    s.dropKey?.map fun s => ((s.emit .blockEntry).skip 1).allow true

/-- The question mark before a key. -/
def questionMark? (s : Lexer) : Option Lexer :=
  if !s.inFlow && !s.keyAllowed then none
  else (s.openBlockHere? .blockMapping).bind fun s =>
    s.dropKey?.map fun s => ((s.emit .key).skip 1).allow (!s.inFlow)

/-- The colon before a value. Where a key is pending it is made one; where none is, the key stands
on a line of its own or is empty. -/
def colon? (s : Lexer) : Option Lexer :=
  let p := s.pending
  let rest := { s with pending := { p with possible := false } }
  if p.possible && p.reaches s.cursor then
    ((rest.emitAt p.number .key).openBlock? p.column p.number .blockMapping).map fun s =>
      (((s.forgetKeyToken p.number).emit .value).skip 1).allow false
  else if p.possible && p.required then none
  else if !s.inFlow && !s.keyAllowed then none
  else (rest.openBlockHere? .blockMapping).map fun s =>
    ((s.emit .value).skip 1).allow (!s.inFlow)

/-- Whether a plain scalar may begin with the next character. -/
def opensPlain (s : Lexer) : Bool :=
  let c := s.cursor.char
  let next := s.cursor.charAt 1
  if c == '-' then !isBlank next
  else if c == '?' || c == ':' then !s.inFlow && !endsWord next
  else !endsWord c && !",[]\x7b\x7d#&*!|>'\"%@`".toList.contains c

/-- Reads the token in front, after the gap before it. -/
def tokenAt? (s : Lexer) : Option Lexer :=
  let k := s.cursor
  let c := k.char
  if c == '[' then s.openFlow? .flowSequence
  else if c == '\x7b' then s.openFlow? .flowMapping
  else if c == ']' then s.closeFlow? .flowSequenceEnd
  else if c == '\x7d' then s.closeFlow? .flowMappingEnd
  else if c == ',' then s.dropKey?.map fun s => ((s.emit .flowEntry).skip 1).allow true
  else if c == '-' && endsWord (k.charAt 1) then s.dash?
  else if c == '?' && (s.inFlow || endsWord (k.charAt 1)) then s.questionMark?
  else if c == ':' && (s.inFlow || endsWord (k.charAt 1)) then s.colon?
  else if c == '*' then s.saveKey?.bind fun s => (s.allow false).anchor? .alias
  else if c == '&' then s.saveKey?.bind fun s => (s.allow false).anchor? .anchor
  else if c == '!' then s.saveKey?.bind fun s => (s.allow false).tag?
  else if (c == '|' || c == '>') && !s.inFlow then
    s.dropKey?.bind fun s => (s.allow true).scalar? false (block? (c == '|') s.least k)
  else if c == '\'' then s.saveKey?.bind fun s => (s.allow false).scalar? false (quoted? .single k)
  else if c == '"' then s.saveKey?.bind fun s => (s.allow false).scalar? false (quoted? .double k)
  else if s.opensPlain then
    s.saveKey?.bind fun s => (s.allow false).scalar? true (plain? s.inFlow s.least k)
  else none

/-- Passes a comment on the same line after a token that is not a dash. -/
def overLineComment? (s : Lexer) : Option Lexer :=
  if s.queue.getLast? = some .blockEntry then some s
  else s.cursor.overLineComment?.map fun k => { s with cursor := k }

/-- The end of the text, which is also the end of its last line. -/
def atEnd? (s : Lexer) : Option Lexer :=
  let k := s.cursor
  let k := if k.column = 0 then k else { k with line := k.line + 1, column := 0 }
  let s := { s with cursor := k }
  s.closeAll?.map fun s => { s.emit .streamEnd with ended := true }

/-- Reads the next token and what it takes to place it; fails where there is none. -/
def next? (s : Lexer) : Option Lexer := do
  let s ← s.skipGaps? s.cursor.bound
  let s := s.closeBlocks (s.cursor.column < ·)
  let k ← s.cursor.need? 4
  let s := { s with cursor := k }
  if k.char == endMark then s.atEnd?
  else if k.column == 0 && k.char == '%' then s.closeAll?.bind directive?
  else if k.atMarker '-' then s.closeAll?.map fun s => (s.emit .documentStart).skip 3
  else if k.atMarker '.' then s.closeAll?.map fun s => (s.emit .documentEnd).skip 3
  else s.tokenAt?.bind overLineComment?

/-- Whether the first token that is waiting can be given away. It cannot while fewer than two others
are waiting, or while a key that it may begin can still end here. Nothing when a required key cannot
end any more. -/
def isReady? (s : Lexer) : Option Bool :=
  if !s.ended && s.queue.length ≤ 2 then some false
  else match s.keyTokens.lookup s.count with
    | none => some true
    | some depth =>
      match s.pendingAt? depth with
      | none => some true
      | some p =>
        if !p.possible then some true
        else if p.reaches s.cursor then some false
        else if p.required then none
        else some true

/-- Gives the first token that is waiting away. That a key may begin with it counts no more. -/
def give (s : Lexer) (t : Token) (queue : List Token) : Lexer :=
  { s.forgetKeyToken s.count with
    queue := queue, given := t :: s.given, count := s.count + 1 }

/-- Gives tokens away and reads more of them, to the end of the text or as far as that goes. The
answer has the tokens given away, the latest first. -/
def run : (fuel : Nat) → Lexer → List Token
  | 0, s => s.given
  | fuel + 1, s =>
    match s.isReady?, s.queue with
    | none, _ => s.given
    | some true, t :: queue =>
      if t = .streamEnd then t :: s.given
      else run fuel (s.give t queue)
    | _, _ =>
      match s.next? with
      | none => s.given
      | some s => run fuel s

end Lexer

/-- The tokens of a text, as far as they can be read. -/
def Token.scan (content : String) : List Token :=
  let cs := content.toList
  (Lexer.run (8 * (cs.length + 2)) { cursor := .start cs }).reverse

end NodeFamily.Yaml
