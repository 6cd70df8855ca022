import Mathlib.Data.List.Forall2
import NodeFamily.Proofs.Pieces

/-!
# Reading declarations off lines

What a text of the emitted language declares, read off its lines by someone who does not know how
they were written. A line declares something when it begins with one of four openings, and `items`
reads each of these lines to the name that it declares, together with the members in the lines below
it or with the call that is made there. No line is skipped: an import, a field or a comment that
began with an opening would be read as well (`countP_begins`).

A block of lines that shows certain items, whatever lines come after it, is said to do so by
`Shows`, and blocks one after the other show theirs one after the other (`Shows.intercalate`).
-/

namespace NodeFamily.Outline

/-! ## Reading lines -/

/-- The lines of a text. The end of the text after a line break is an empty line. -/
def linesOf (text : String) : List String := (Text.cutAt '\n' text.toList).map String.ofList

/-- There are no more lines with their ends than without, since those end where these do. -/
theorem length_linesWithEnds_le (text : String) :
    (Text.linesWithEnds text).length ≤ (linesOf text).length := by
  have hpieces : ∀ cs : List Char,
      (Text.cutAfter '\n' cs).length ≤ (Text.cutAt '\n' cs).length := by
    intro cs
    induction cs with
    | nil => exact Nat.zero_le _
    | cons c cs ih =>
      rw [Text.cutAfter, Text.cutAt]
      split_ifs
      · exact Nat.succ_le_succ ih
      · split <;> split <;> simp_all
  rw [Text.linesWithEnds, linesOf, List.length_map, List.length_map]
  exact hpieces _

/-- The characters before the first `c`. -/
def upTo (c : Char) (cs : List Char) : List Char := cs.takeWhile (· ≠ c)

/-- The characters after the first `c`. -/
def after (c : Char) (cs : List Char) : List Char := (cs.dropWhile (· ≠ c)).drop 1

/-- A text without the spaces at its front. -/
def dropSpaces (cs : List Char) : List Char := cs.dropWhile (· = ' ')

/-- The parts of a text between commas, without the spaces in front of them. -/
def commaParts (cs : List Char) : List (List Char) :=
  if cs = [] then [] else (Text.cutAt ',' cs).map dropSpaces

/-- What stands before and after the first `c`. -/
def pairAt (c : Char) (cs : List Char) : String × String :=
  (String.ofList (upTo c cs), String.ofList (dropSpaces (after c cs)))

/-- How a line begins that declares something. -/
inductive Opening
  /-- A type. -/
  | type
  /-- A check that a type is a node. -/
  | check
  /-- A method. -/
  | accept
  /-- A constructor. -/
  | constructor
deriving DecidableEq, Repr

namespace Opening

/-- The characters of an opening. -/
def text : Opening → String
  | type => "type "
  | check => "var _ "
  | accept => "func (e *"
  | constructor => "func New"

/-- Whether a line begins with an opening. -/
def begins (k : Opening) (line : String) : Bool := k.text.toList.isPrefixOf line.toList

/-- The opening that a line begins with. -/
def of? (line : String) : Option Opening :=
  [type, check, accept, constructor].find? (·.begins line)

/-- A line begins with no more than one opening. -/
theorem eq_of_begins {j k : Opening} {line : String} (hj : j.begins line = true)
    (hk : k.begins line = true) : j = k := by
  have hexclusive : ∀ j k : Opening, j.text.toList.isPrefixOf k.text.toList = true → j = k := by
    intro j k
    cases j <;> cases k <;> decide
  simp only [begins, List.isPrefixOf_iff_prefix] at hj hk
  simp only [List.isPrefixOf_iff_prefix] at hexclusive
  rcases List.prefix_or_prefix_of_prefix hj hk with h | h
  · exact hexclusive j k h
  · exact (hexclusive k j h).symm

/-- The opening of a line is the one that it begins with. -/
theorem of?_eq_some_iff {k : Opening} {line : String} :
    of? line = some k ↔ k.begins line = true := by
  have hbegins : ∀ j, of? line = some j → j.begins line = true := fun j hj =>
    List.find?_some (p := fun k : Opening => k.begins line) hj
  constructor
  · exact hbegins k
  · intro hk
    have hsome : (of? line).isSome = true := by
      rw [of?, List.find?_isSome]
      exact ⟨k, by cases k <;> simp, hk⟩
    obtain ⟨j, hj⟩ := Option.isSome_iff_exists.1 hsome
    rw [hj, eq_of_begins (hbegins j hj) hk]

/-- A line with the characters of an opening at its front. -/
theorem of?_append (k : Opening) (rest : String) : of? (k.text ++ rest) = some k := by
  rw [of?_eq_some_iff, begins, String.toList_append, List.isPrefixOf_iff_prefix]
  exact List.prefix_append _ _

/-- A line whose first character begins no opening. -/
theorem of?_eq_none {line : String} {c : Char} (h : line.toList.head? = some c)
    (hc : c ∉ ['t', 'v', 'f']) : of? line = none := by
  have hfirst : ∀ k : Opening, k.text.toList.head? ∈ ['t', 'v', 'f'].map some := by
    intro k
    cases k <;> decide
  refine List.find?_eq_none.2 fun k _ hk => ?_
  obtain ⟨d, hd, heq⟩ := List.mem_map.1 (hfirst k)
  obtain ⟨cs, hcs⟩ := List.head?_eq_some_iff.1 h
  obtain ⟨rest, hrest⟩ := List.head?_eq_some_iff.1 heq.symm
  rw [begins, hcs, List.isPrefixOf_iff_prefix] at hk
  rw [hrest, List.cons_prefix_cons] at hk
  exact hc (hk.1 ▸ hd)

end Opening

/-- What is declared by a line and the lines below it. -/
inductive Item
  /-- An interface with its methods, each with the type that it takes. -/
  | interface (name : String) (methods : List (String × String))
  /-- A struct with its fields and their types. -/
  | struct (name : String) (fields : List (String × String))
  /-- A check that a type is a node. -/
  | check (name : String)
  /-- The accepting method of a type with the method that it calls. -/
  | accept (name method : String)
  /-- A constructor of a type with its parameters and their types, and the type that it builds with
  the fields and the parameters that they are set to. -/
  | constructor (name : String) (params : List (String × String)) (built : String)
    (inits : List (String × String))
deriving DecidableEq, Repr

namespace Item

/-- The opening of the line that an item is declared by. -/
def opening : Item → Opening
  | interface .. | struct .. => .type
  | check .. => .check
  | accept .. => .accept
  | constructor .. => .constructor

/-- A method of an interface: its name and the type that it takes. -/
def readMethod (line : String) : String × String :=
  (String.ofList (upTo '(' (line.toList.drop 1)),
    String.ofList (upTo '[' (after ' ' line.toList)))

/-- A field of a struct: its identifier and its type. -/
def readField (line : String) : String × String := pairAt ' ' (line.toList.drop 1)

/-- Reads what follows an opening on its line, and the lines below it. -/
def read (k : Opening) (rest : List Char) (below : List String) : Item :=
  let body := below.takeWhile (· ≠ "\x7d")
  let next := (below.headD "").toList
  match k with
  | .type =>
    if after ']' rest = " interface \x7b".toList then
      .interface (String.ofList (upTo '[' rest)) (body.map readMethod)
    else .struct (String.ofList (upTo '[' rest)) (body.map readField)
  | .check => .check (String.ofList (upTo '[' (after '*' rest)))
  | .accept => .accept (String.ofList (upTo '[' rest)) (String.ofList (upTo '(' (after '.' next)))
  | .constructor =>
    .constructor (String.ofList (upTo '[' rest))
      ((commaParts (upTo ')' (after '(' rest))).map (pairAt ' '))
      (String.ofList (upTo '[' (after '&' next)))
      ((commaParts (upTo '\x7d' (after '\x7b' next))).map (pairAt ':'))

end Item

/-- What the lines of a text declare, one item for each line with an opening. -/
def items : List String → List Item
  | [] => []
  | line :: below =>
    match Opening.of? line with
    | some k => .read k (line.toList.drop k.text.length) below :: items below
    | none => items below

/-- A line with the characters of an opening at its front is read after them. -/
theorem items_append (k : Opening) (rest : String) (below : List String) :
    items ((k.text ++ rest) :: below) = .read k rest.toList below :: items below := by
  have hdrop : (k.text ++ rest).toList.drop k.text.length = rest.toList := by
    rw [String.toList_append, ← String.length_toList, List.drop_left]
  rw [items, Opening.of?_append]
  simp only [hdrop]

/-- The openings of the items are those of the lines. -/
theorem map_opening_items (lines : List String) :
    (items lines).map Item.opening = lines.filterMap Opening.of? := by
  have hread : ∀ k rest below, (Item.read k rest below).opening = k := by
    intro k rest below
    cases k with
    | type =>
      simp only [Item.read]
      split_ifs <;> rfl
    | _ => rfl
  fun_induction items lines with
  | case1 => rfl
  | case2 line below k hk ih => rw [List.filterMap_cons_some hk, List.map_cons, hread, ih]
  | case3 line below hk ih => rw [List.filterMap_cons_none hk, ih]

/-- There are as many items of an opening as lines that begin with it. -/
theorem countP_begins (k : Opening) (lines : List String) :
    lines.countP k.begins = ((items lines).map Item.opening).count k := by
  rw [map_opening_items, List.count_filterMap]
  refine List.countP_congr fun line _ => ?_
  simp [Opening.of?_eq_some_iff]

/-! ## Cutting at a character -/

/-- What stands before a character. -/
theorem upTo_append {c : Char} {cs : List Char} (h : c ∉ cs) (rest : List Char) :
    upTo c (cs ++ c :: rest) = cs := by
  rw [upTo, Text.takeWhile_append_stop (by simp), List.takeWhile_eq_self_iff]
  rintro d hd
  simpa using ne_of_mem_of_not_mem hd h

/-- What follows a character. -/
theorem after_append {c : Char} {cs : List Char} (h : c ∉ cs) (rest : List Char) :
    after c (cs ++ c :: rest) = rest := by
  have hall : ∀ d ∈ cs, decide (d ≠ c) = true := by
    intro d hd
    simpa using ne_of_mem_of_not_mem hd h
  rw [after, List.dropWhile_append_of_pos hall]
  simp

/-- A text without spaces after some spaces. -/
theorem dropSpaces_append {cs : List Char} (h : ' ' ∉ cs) (n : Nat) :
    dropSpaces (List.replicate n ' ' ++ cs) = cs := by
  rw [dropSpaces, List.dropWhile_append_of_pos (by simp), List.dropWhile_eq_self_iff]
  intro hpos
  simpa using ne_of_mem_of_not_mem (List.getElem_mem hpos) h

/-- A pair with any number of spaces before its second part. -/
theorem pairAt_append {c : Char} {a b : String} (ha : c ∉ a.toList) (hb : ' ' ∉ b.toList)
    (n : Nat) : pairAt c (a.toList ++ c :: (List.replicate n ' ' ++ b.toList)) = (a, b) := by
  rw [pairAt, upTo_append ha, after_append ha, dropSpaces_append hb, String.ofList_toList,
    String.ofList_toList]

/-- A space at the front of a text makes no difference to its parts. -/
theorem map_dropSpaces_cutAt (cs : List Char) :
    (Text.cutAt ',' (' ' :: cs)).map dropSpaces = (Text.cutAt ',' cs).map dropSpaces := by
  rw [Text.cutAt, if_neg (by decide)]
  cases hcut : Text.cutAt ',' cs with
  | nil => exact absurd hcut (Text.cutAt_ne_nil _ _)
  | cons part parts => simp [dropSpaces]

/-- Parts without commas and spaces at their front are found again in the text that they make with
commas between them. -/
theorem commaParts_intercalate {xs : List String}
    (h : ∀ x ∈ xs, ',' ∉ x.toList ∧ dropSpaces x.toList = x.toList ∧ x ≠ "") :
    commaParts (", ".intercalate xs).toList = xs.map String.toList := by
  have hparts : ∀ x xs, (∀ y ∈ x :: xs, ',' ∉ y.toList ∧ dropSpaces y.toList = y.toList ∧ y ≠ "") →
      (Text.cutAt ',' (", ".intercalate (x :: xs)).toList).map dropSpaces =
        (x :: xs).map String.toList := by
    intro x xs h
    induction xs generalizing x with
    | nil =>
      obtain ⟨hcomma, hspaces, -⟩ := h x List.mem_cons_self
      rw [String.intercalate_singleton, Text.cutAt_of_not_mem hcomma, List.map_singleton, hspaces]
      rfl
    | cons y xs ih =>
      obtain ⟨⟨hcomma, hspaces, -⟩, hrest⟩ := List.forall_mem_cons.1 h
      have htext : (", ".intercalate (x :: y :: xs)).toList =
          x.toList ++ ',' :: ' ' :: (", ".intercalate (y :: xs)).toList := by
        rw [String.intercalate_cons_cons]
        simp
      rw [htext, Text.cutAt_append_cons hcomma, List.map_cons, map_dropSpaces_cutAt, ih y hrest,
        hspaces]
      rfl
  cases xs with
  | nil => rfl
  | cons x xs =>
    have hne : (", ".intercalate (x :: xs)).toList ≠ [] := by
      intro hnil
      have hfirst := hparts x xs h
      rw [hnil] at hfirst
      have hx : x.toList = [] := (List.cons.inj hfirst).1.symm
      exact (h x List.mem_cons_self).2.2 (String.toList_eq_nil_iff.1 hx)
    rw [commaParts, if_neg hne, hparts x xs h]

/-! ## Lines -/

/-- The lines of a text that goes on after a line break. -/
theorem linesOf_append {line : String} (h : '\n' ∉ line.toList) (text : String) :
    linesOf (line ++ "\n" ++ text) = line :: linesOf text := by
  have htext : (line ++ "\n" ++ text).toList = line.toList ++ '\n' :: text.toList := by simp
  rw [linesOf, htext, Text.cutAt_append_cons h, List.map_cons, String.ofList_toList, linesOf]

/-- The lines of a text that is made of lines, each with a line break after it. -/
theorem linesOf_join {lines : List String} (h : ∀ line ∈ lines, '\n' ∉ line.toList) :
    linesOf (String.join (lines.map (· ++ "\n"))) = lines ++ [""] := by
  induction lines with
  | nil => rfl
  | cons line lines ih =>
    obtain ⟨hline, hlines⟩ := List.forall_mem_cons.1 h
    rw [List.map_cons, String.join_cons, linesOf_append hline, ih hlines, List.cons_append]

/-- Lines that show items, whatever lines come after them. -/
def Shows (lines : List String) (is : List Item) : Prop :=
  ∀ below, items (lines ++ below) = is ++ items below

/-- The lines of a body are those above the one that ends it. -/
theorem takeWhile_body {last : String} {body : List String} (h : ∀ line ∈ body, line ≠ last)
    (below : List String) : (body ++ last :: below).takeWhile (· ≠ last) = body := by
  rw [List.takeWhile_append_of_pos (by simpa using h)]
  simp

namespace Shows

/-- No lines show nothing. -/
theorem nil : Shows [] [] := fun _ => rfl

/-- Lines after others show their items after those of the others. -/
theorem append {lines lines' : List String} {is is' : List Item} (h : Shows lines is)
    (h' : Shows lines' is') : Shows (lines ++ lines') (is ++ is') := by
  intro below
  rw [List.append_assoc, h, h', List.append_assoc]

/-- A line without an opening shows nothing. -/
theorem skip {line : String} (hline : Opening.of? line = none) {lines : List String}
    {is : List Item} (h : Shows lines is) : Shows (line :: lines) is := by
  intro below
  rw [List.cons_append, items, hline]
  exact h below

/-- Lines without openings show nothing. -/
theorem skips {lines : List String} (h : ∀ line ∈ lines, Opening.of? line = none) :
    Shows lines [] := by
  induction lines with
  | nil => exact nil
  | cons line lines ih =>
    rw [List.forall_mem_cons] at h
    exact skip h.1 (ih h.2)

/-- A line with an opening and lines without one below it, up to a line that ends them all. -/
theorem block {k : Opening} {rest : String} {body : List String}
    (hbody : ∀ line ∈ body, Opening.of? line = none ∧ line ≠ "\x7d") {item : Item}
    (h : Item.read k rest.toList (body ++ ["\x7d"]) = item) :
    Shows ([k.text ++ rest] ++ body ++ ["\x7d"]) [item] := by
  intro below
  -- The reader goes no further than the last line of the block.
  have hread : Item.read k rest.toList (body ++ ["\x7d"] ++ below) =
      .read k rest.toList (body ++ ["\x7d"]) := by
    have hnext : (body ++ ["\x7d"] ++ below).headD "" = (body ++ ["\x7d"]).headD "" := by
      cases body <;> rfl
    have hlast : ∀ line ∈ body, line ≠ "\x7d" := fun line hline => (hbody line hline).2
    unfold Item.read
    rw [hnext, List.append_assoc, List.singleton_append, takeWhile_body hlast,
      takeWhile_body hlast]
  have hskip : items (body ++ ["\x7d"] ++ below) = items below := by
    refine skips (fun line hline => ?_) below
    rcases List.mem_append.1 hline with hline | hline
    · exact (hbody line hline).1
    · obtain rfl := List.mem_singleton.1 hline
      decide
  rw [List.append_assoc, List.append_assoc, List.singleton_append, ← List.append_assoc,
    items_append, hread, hskip, h, List.singleton_append]

/-- A block with one line below its first one. -/
theorem block_singleton {k : Opening} {rest line : String}
    (hline : Opening.of? line = none ∧ line ≠ "\x7d") {item : Item}
    (h : Item.read k rest.toList [line, "\x7d"] = item) :
    Shows [k.text ++ rest, line, "\x7d"] [item] :=
  block (List.forall_mem_singleton.2 hline) h

/-- Blocks that show items show them one after the other, with empty lines between them. -/
theorem intercalate {blocks : List (List String)} {iss : List (List Item)}
    (h : List.Forall₂ Shows blocks iss) :
    Shows (List.intercalate [""] blocks) iss.flatten := by
  induction h with
  | nil => exact nil
  | @cons block is blocks iss hblock hblocks ih =>
    cases hblocks with
    | nil => simpa using hblock
    | cons hnext hblocks =>
      rw [List.intercalate_cons_cons, List.flatten_cons]
      have hempty : Shows [""] [] := skips (by decide)
      simpa using (hblock.append hempty).append ih

end Shows

end NodeFamily.Outline
