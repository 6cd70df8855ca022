import NodeFamily.Yaml.Cursor
import NodeFamily.Text.Digit

/-!
# Texts of YAML scalars

A scalar is written plain, in quotes or as an indented block. In the first two a gap between words
may go over several lines and is then folded: one line break is a space, and of more the first is
dropped. A block is folded only when it asks for it, and its indicators say how far it is indented
and what becomes of the line breaks at its end.
-/

namespace NodeFamily.Yaml

/-- A run of blanks and line breaks between the words of a scalar. -/
structure Gap where
  /-- The blanks before the first line break. -/
  blanks : List Char := []
  /-- Whether a line has ended in it. -/
  overLine : Bool := false
  /-- The first line break, unless it is escaped. -/
  first : List Char := []
  /-- The line breaks after it. -/
  more : List Char := []
deriving Repr

namespace Gap

/-- What a gap stands for. -/
def text (g : Gap) : List Char :=
  if !g.overLine then g.blanks
  else if g.first == ['\n'] then if g.more.isEmpty then [' '] else g.more
  else g.first ++ g.more

/-- A gap with one more line break. -/
def push (g : Gap) (c : Char) : Gap :=
  if g.overLine then { g with more := g.more ++ [breakChar c] }
  else { g with blanks := [], overLine := true, first := [breakChar c] }

/-- Reads the gap in front, after what is known of it. Where a continued line has a tab before
column `least` there is none to read. -/
def read? (least : Nat) : (fuel : Nat) → Gap → Cursor → Option (Gap × Cursor)
  | 0, g, k => some (g, k)
  | fuel + 1, g, k =>
    if isBlank k.char then
      if g.overLine && k.column < least && k.char == '\t' then none
      else
        let g' := if g.overLine then g else { g with blanks := g.blanks ++ [k.char] }
        (k.skip.need? 1).bind (read? least fuel g')
    else if isBreak k.char then
      (k.need? 2).bind fun k => (k.overBreak.need? 1).bind (read? least fuel (g.push k.char))
    else some (g, k)

end Gap

/-- What a reader of a scalar found: its text, and the cursor after it. -/
structure ScalarText where
  /-- The text. -/
  text : String
  /-- Where reading goes on. -/
  after : Cursor
  /-- Whether a line has ended after the last character of a plain scalar. -/
  overLine : Bool := false

/-- What a reader found, from the characters backwards. -/
def ScalarText.ofReversed (read : List Char) (after : Cursor) (overLine : Bool) : ScalarText :=
  ⟨String.ofList read.reverse, after, overLine⟩

/-- Whether a character ends a plain scalar wherever it stands inside brackets. -/
def isFlowIndicator (c : Char) : Bool :=
  c == ',' || c == '?' || c == '[' || c == ']' || c == '\x7b' || c == '\x7d'

/-- Whether a plain scalar ends before the next character. -/
def endsPlain (inFlow : Bool) (k : Cursor) : Bool :=
  endsWord k.char || (k.char == ':' && endsWord (k.charAt 1)) || (inFlow && isFlowIndicator k.char)

/-- Reads the characters of a plain scalar up to a gap or an indicator that ends it. `read` is what
has been read, backwards. -/
def plainRun? (inFlow : Bool) : (fuel : Nat) → (read : List Char) → Cursor →
    Option (List Char × Cursor)
  | 0, read, k => some (read, k)
  | fuel + 1, read, k =>
    if endsPlain inFlow k then some (read, k)
    else (k.skip.need? 2).bind (plainRun? inFlow fuel (k.char :: read))

/-- Reads a plain scalar from a word on. `read` is what has been read, backwards, and `g` the gap
after it. Outside brackets the scalar ends at a line that is not indented to column `least`. -/
def readPlain? (inFlow : Bool) (least : Nat) :
    (fuel : Nat) → (read : List Char) → Gap → Cursor → Option ScalarText
  | 0, read, g, k => some (.ofReversed read k g.overLine)
  | fuel + 1, read, g, k =>
    (k.need? 4).bind fun k =>
      if k.atDocumentLine || k.char == '#' || endsPlain inFlow k then
        some (.ofReversed read k g.overLine)
      else
        (plainRun? inFlow k.bound (g.text.reverse ++ read) k).bind fun (read, k) =>
          if !isGap k.char then some (.ofReversed read k false)
          else (Gap.read? least k.bound {} k).bind fun (g, k) =>
            if !inFlow && k.column < least then some (.ofReversed read k g.overLine)
            else readPlain? inFlow least fuel read g k

/-- Reads a plain scalar. -/
def plain? (inFlow : Bool) (least : Nat) (k : Cursor) : Option ScalarText :=
  readPlain? inFlow least k.bound [] {} k

/-- What a backslash and a character stand for, where that is a character. -/
def escaped? (c : Char) : Option Char :=
  match c with
  | '0' => some '\x00'
  | 'a' => some '\x07'
  | 'b' => some '\x08'
  | 't' | '\t' => some '\t'
  | 'n' => some '\n'
  | 'v' => some '\x0b'
  | 'f' => some '\x0c'
  | 'r' => some '\r'
  | 'e' => some '\x1b'
  | ' ' | '"' | '\'' | '\\' => some c
  | 'N' => some '\u0085'
  | '_' => some '\u00a0'
  | 'L' => some '\u2028'
  | 'P' => some '\u2029'
  | _ => none

/-- How many hexadecimal digits follow a backslash and a character, where some do. -/
def escapeDigits? (c : Char) : Option Nat :=
  match c with
  | 'x' => some 2
  | 'u' => some 4
  | 'U' => some 8
  | _ => none

/-- The character that the escape in front stands for, and what follows it. -/
def readEscape? (k : Cursor) : Option (Char × Cursor) :=
  match escapeDigits? (k.charAt 1) with
  | none => (escaped? (k.charAt 1)).map fun e => (e, k.skipBy 2)
  | some n =>
    ((k.skipBy 2).need? n).bind fun k =>
      if (k.rest.take n).length < n then none
      else (Text.hexNumber? (k.rest.take n)).bind fun value =>
        if value.isValidChar then some (Char.ofNat value, k.skipBy n) else none

/-- The two kinds of quotes. -/
inductive Quote
  | single
  | double
deriving DecidableEq, Repr

/-- The character of a quote. -/
def Quote.char : Quote → Char
  | .single => '\''
  | .double => '"'

/-- Reads the characters in quotes up to a gap or the closing quote. Two single quotes are one. The
answer says whether an escaped line break has been passed at the end. -/
def quotedRun? (q : Quote) : (fuel : Nat) → (read : List Char) → Cursor →
    Option (List Char × Bool × Cursor)
  | 0, read, k => some (read, false, k)
  | fuel + 1, read, k =>
    if endsWord k.char then some (read, false, k)
    else if k.char == q.char then
      if q = .single && k.charAt 1 == q.char then
        ((k.skipBy 2).need? 2).bind (quotedRun? q fuel (q.char :: read))
      else some (read, false, k)
    else if q = .double && k.char == '\\' then
      if isBreak (k.charAt 1) then
        (k.need? 3).map fun k => (read, true, k.skip.overBreak)
      else (readEscape? k).bind fun (e, k) =>
        (k.need? 2).bind (quotedRun? q fuel (e :: read))
    else (k.skip.need? 2).bind (quotedRun? q fuel (k.char :: read))

/-- Reads the text in quotes after the opening one. An escaped line break is dropped together with
the blanks of the next line. `read` is what has been read, backwards. -/
def readQuoted? (q : Quote) : (fuel : Nat) → (read : List Char) → Cursor → Option ScalarText
  | 0, _, _ => none
  | fuel + 1, read, k =>
    (k.need? 4).bind fun k =>
      if k.atDocumentLine || k.char == endMark then none
      else (quotedRun? q k.bound read k).bind fun (read, escaped, k) =>
        (k.need? 1).bind fun k =>
          if k.char == q.char then some (.ofReversed read k.skip false)
          else (Gap.read? 0 k.bound { overLine := escaped } k).bind fun (g, k) =>
            readQuoted? q fuel (g.text.reverse ++ read) k

/-- Reads a scalar in quotes. -/
def quoted? (q : Quote) (k : Cursor) : Option ScalarText :=
  readQuoted? q k.bound [] k.skip

/-- What becomes of the line breaks at the end of a block. -/
inductive Chomping
  /-- All are dropped. -/
  | strip
  /-- The first is kept. -/
  | clip
  /-- All are kept. -/
  | keep
deriving DecidableEq, Repr

/-- The indicators of a block after its first character. -/
structure BlockHead where
  /-- What becomes of the line breaks at its end. -/
  chomping : Chomping := .clip
  /-- How far it is indented beyond what holds it, where it says so. -/
  increment? : Option Nat := none

/-- The chomping that a character asks for. -/
def chomping? (c : Char) : Option Chomping :=
  if c = '+' then some .keep else if c = '-' then some .strip else none

/-- The indentation that a character asks for: nothing when it is no digit, and `none` inside when
it is zero. -/
def increment? (c : Char) : Option (Option Nat) :=
  if c = '0' then some none
  else if c.isDigit then some (some (c.toNat - 48))
  else none

/-- Reads the indicators of a block, in either order. -/
def blockHead? (k : Cursor) : Option (BlockHead × Cursor) :=
  (k.need? 1).bind fun k =>
    match chomping? k.char with
    | some ch =>
      (k.skip.need? 1).bind fun k =>
        match increment? k.char with
        | some none => none
        | some (some n) => some (⟨ch, some n⟩, k.skip)
        | none => some (⟨ch, none⟩, k)
    | none =>
      match increment? k.char with
      | some none => none
      | some (some n) =>
        (k.skip.need? 1).map fun k =>
          match chomping? k.char with
          | some ch => (⟨ch, some n⟩, k.skip)
          | none => (⟨.clip, some n⟩, k)
      | none => some ({}, k)

/-- Passes the indentation of a line inside a block, up to the column of the block where it is
known. -/
def overIndent? (indent? : Option Nat) : (fuel : Nat) → Cursor → Option Cursor
  | 0, k => some k
  | fuel + 1, k =>
    if k.char == ' ' && indent?.all (k.column < ·) then
      (k.skip.need? 1).bind (overIndent? indent? fuel)
    else some k

/-- Passes indentation and empty lines inside a block. The answer has the indentation of the block,
found here where it is not given, the line breaks, and the cursor at the next line that is not
empty. -/
def blockIndent? (least : Nat) : (fuel : Nat) → (indent? : Option Nat) → (widest : Nat) →
    (breaks : List Char) → Cursor → Option (Nat × List Char × Cursor)
  | 0, _, _, _, _ => none
  | fuel + 1, indent?, widest, breaks, k =>
    ((k.need? 1).bind (overIndent? indent? k.bound)).bind fun k =>
      let widest := max widest k.column
      if k.char == '\t' && indent?.all (k.column < ·) then none
      else if isBreak k.char then
        (k.need? 2).bind fun k =>
          blockIndent? least fuel indent? widest (breaks ++ [breakChar k.char]) k.overBreak
      else some (indent?.getD (max widest (max least 1)), breaks, k)

/-- Reads the lines of a block. `read` is what has been read, backwards, `last` is the line break of
the line before, `breaks` are those of the empty lines after it, and `wasBlank` says whether that
line began with a blank. -/
def blockLines? (literal : Bool) (indent : Nat) : (fuel : Nat) → (read : List Char) →
    (last : List Char) → (breaks : List Char) → (wasBlank : Bool) → Cursor →
    Option (List Char × List Char × List Char × Cursor)
  | 0, _, _, _, _, _ => none
  | fuel + 1, read, last, breaks, wasBlank, k =>
    if k.column ≠ indent || k.char == endMark then some (read, last, breaks, k)
    else
      let blank := isBlank k.char
      let joint :=
        if !literal && !wasBlank && !blank && last == ['\n'] then
          if breaks.isEmpty then [' '] else []
        else last
      (k.readWhile? (fun c => !endsLine c) k.bound
          ((joint ++ breaks).reverse ++ read)).bind fun (read, k) =>
        (k.need? 2).bind fun k =>
          let last := if isBreak k.char then [breakChar k.char] else []
          (blockIndent? indent k.bound (some indent) 0 [] k.overBreak).bind
            fun (_, breaks, k) => blockLines? literal indent fuel read last breaks blank k

/-- Reads a block scalar inside something indented to column `least - 1`. -/
def block? (literal : Bool) (least : Nat) (k : Cursor) : Option ScalarText :=
  (blockHead? k.skip).bind fun (head, k) =>
    (k.overBlanks?.bind fun k => if k.char == '#' then k.overLine? else some k).bind fun k =>
      if !endsLine k.char then none
      else k.overBreak?.bind fun k =>
        let indent? := head.increment?.map (least - 1 + ·)
        (blockIndent? least k.bound indent? 0 [] k).bind fun (indent, breaks, k) =>
          (blockLines? literal indent k.bound [] [] breaks false k).map
            fun (read, last, breaks, k) =>
              let ending := match head.chomping with
                | .strip => []
                | .clip => last
                | .keep => last ++ breaks
              .ofReversed (ending.reverse ++ read) k false

end NodeFamily.Yaml
