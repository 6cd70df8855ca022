import Mathlib.Data.List.Forall2
import NodeFamily.Layout.Grammar.Decl
import NodeFamily.Layout.Page

/-!
# Readings that succeed

`Reads t x before after post` says that the reading `x` succeeds wherever the elements `before` are
ahead on the lines that they name, that it leaves the elements `after` ahead, and that what it gives
satisfies `post`. It holds of a sequence when it holds of the parts (`Reads.bind`), and of a loop
when it holds of each round (`Reads.upTo`, `Reads.whileMore`, `Reads.iterate_step`). So the grammar
can be followed rule by rule, and nothing about tokens other than their elements and their lines is
ever looked at.
-/

namespace NodeFamily.Layout

/-! ## Elements on lines -/

/-- A text that is not empty and breaks no line stands at a position of a line, and ends on it. -/
structure LineTable.Has (t : LineTable) (line : Nat) (text : String) (pos : Nat) : Prop where
  /-- The text is not empty. -/
  ne_empty : text ≠ ""
  /-- The text breaks no line. -/
  unbroken : ∀ c ∈ text.toList, Page.isBreak c = false
  /-- There is such a line. -/
  isLine : 0 < line
  /-- There is such a position. -/
  isPosition : 0 < pos
  /-- The text starts on the line. -/
  start : t.line pos = line
  /-- The text ends on the line. -/
  stop : t.line (pos + octets text.toList) = line
  /-- The keyword of a type declaration begins the line. -/
  opens : text = "type" → (t.place pos).column = 1

/-- The characters that write an element, unless it may be a line break or nothing. -/
def Lexeme.text? : Lexeme → Option String
  | .name text | .literal _ text | .sign text | .comment text => some text
  | .semicolon _ | .finish => none

/-- Whether an element is a name. -/
def Lexeme.isName : Lexeme → Bool
  | .name _ => true
  | _ => false

/-- Whether an element is a semicolon. -/
def Lexeme.isSemicolon : Lexeme → Bool
  | .semicolon _ => true
  | _ => false

/-- Whether an element is one of several signs. -/
def Lexeme.isAmong (ss : List String) : Lexeme → Bool
  | .sign s => ss.contains s
  | _ => false

/-- An element and the line on which it stands. -/
structure Item where
  /-- The line. -/
  line : Nat
  /-- The element. -/
  lexeme : Lexeme

namespace Item

/-- Elements on one line. -/
def on (line : Nat) (ls : List Lexeme) : List Item := ls.map (Item.mk line)

/-- Elements on successive lines, the first of which is given. -/
def ofLines (line : Nat) : List (List Lexeme) → List Item
  | [] => []
  | ls :: lss => on line ls ++ ofLines (line + 1) lss

@[simp]
theorem on_nil (line : Nat) : on line [] = [] := rfl

@[simp]
theorem on_cons (line : Nat) (l : Lexeme) (ls : List Lexeme) :
    on line (l :: ls) = ⟨line, l⟩ :: on line ls := rfl

@[simp]
theorem on_append (line : Nat) (ls ls' : List Lexeme) :
    on line (ls ++ ls') = on line ls ++ on line ls' := List.map_append

@[simp]
theorem length_on (line : Nat) (ls : List Lexeme) : (on line ls).length = ls.length :=
  List.length_map _

@[simp]
theorem ofLines_nil (line : Nat) : ofLines line [] = [] := rfl

@[simp]
theorem ofLines_cons (line : Nat) (ls : List Lexeme) (lss : List (List Lexeme)) :
    ofLines line (ls :: lss) = on line ls ++ ofLines (line + 1) lss := rfl

theorem ofLines_append (line : Nat) (lss lss' : List (List Lexeme)) :
    ofLines line (lss ++ lss') = ofLines line lss ++ ofLines (line + lss.length) lss' := by
  induction lss generalizing line with
  | nil => rfl
  | cons ls lss ih =>
    rw [List.cons_append, ofLines_cons, ofLines_cons, ih, List.append_assoc, List.length_cons,
      Nat.add_assoc, Nat.add_comm 1]

/-- Lines that are each made from a thing are made from the things with their lines. -/
theorem ofLines_map {ι : Type} (f : ι → List Lexeme) (line : Nat) (xs : List ι) :
    ofLines line (xs.map f) = (xs.zipIdx line).flatMap fun x => on x.2 (f x.1) := by
  induction xs generalizing line with
  | nil => rfl
  | cons x xs ih => rw [List.map_cons, ofLines_cons, ih, List.zipIdx_cons, List.flatMap_cons]

end Item

/-- A token is an element on its line, beside which no comment stands. -/
structure Token.StandsFor (t : LineTable) (token : Token) (i : Item) : Prop where
  /-- The element. -/
  lexeme : token.lexeme = i.lexeme
  /-- The place. -/
  place : ∀ text, i.lexeme.text? = some text → t.Has i.line text token.pos
  /-- No comment stands beside the token. -/
  aside : token.aside = []

/-- A name with a text stands on a line. -/
structure Name.IsOn (t : LineTable) (line : Nat) (word : String) (n : Name) : Prop where
  /-- The text. -/
  text : n.text = word
  /-- The place. -/
  place : t.Has line word n.pos

/-- The elements ahead of a reader. -/
def Reader.IsAt (t : LineTable) (r : Reader) (before : List Item) : Prop :=
  List.Forall₂ (Token.StandsFor t) r.tokens before

/-- A reader that counts enough tokens and is not in the head of a control statement. -/
structure Reader.IsSound (r : Reader) : Prop where
  /-- No fewer tokens are counted than are ahead. -/
  count : r.tokens.length ≤ r.count
  /-- A brace may open a literal. -/
  level : 0 ≤ r.level

/-- A reading that succeeds on the elements `before`, leaves `after` ahead and gives what satisfies
`post`. It comes out of all the brackets that it goes into. -/
def Reads {α : Type} (t : LineTable) (x : Reading α) (before after : List Item) (post : α → Prop) :
    Prop :=
  ∀ r : Reader, r.IsSound → r.IsAt t before →
    ∃ a r', x r = some (a, r') ∧ r'.IsSound ∧ r'.IsAt t after ∧ r'.level = r.level ∧ post a

namespace Reads

variable {t : LineTable} {α β : Type} {before middle after : List Item} {i : Item} {n : Nat}
  {s : String}

/-! ## Sequences -/

/-- Nothing is read to give a value. -/
theorem pure {a : α} {post : α → Prop} (h : post a) :
    Reads t (Pure.pure a) before before post := by
  intro r hr hbefore
  exact ⟨a, r, rfl, hr, hbefore, rfl, h⟩

/-- One reading after another, which depends on what the first one gives. -/
theorem bind {x : Reading α} {f : α → Reading β} {P : α → Prop} {Q : β → Prop} {m : List Item}
    (hx : Reads t x before m P) (hf : ∀ a, P a → Reads t (f a) m after Q) :
    Reads t (x >>= f) before after Q := by
  intro r hr hbefore
  obtain ⟨a, r₁, hxr, hr₁, hmiddle, hlevel₁, hmid⟩ := hx r hr hbefore
  obtain ⟨b, r₂, hfr, hr₂, hafter, hlevel₂, hpost⟩ := hf a hmid r₁ hr₁ hmiddle
  refine ⟨b, r₂, ?_, hr₂, hafter, hlevel₂.trans hlevel₁, hpost⟩
  change (x r).bind (fun p => f p.1 p.2) = some (b, r₂)
  rw [hxr, Option.bind_some, hfr]

/-- A reading gives less than it is known to give. -/
theorem weaken {x : Reading α} {post post' : α → Prop} (hx : Reads t x before after post)
    (h : ∀ a, post a → post' a) : Reads t x before after post' := by
  intro r hr hbefore
  obtain ⟨a, r', hxr, hr', hafter, hlevel, hpost⟩ := hx r hr hbefore
  exact ⟨a, r', hxr, hr', hafter, hlevel, h a hpost⟩

/-! ## The element at the front -/

/-- The state of the reader is looked at. -/
theorem state : Reads t get before before (fun r => 0 ≤ r.level) := by
  intro r hr hbefore
  exact ⟨r, r, rfl, hr, hbefore, rfl, hr.level⟩

/-- The token at the front is looked at. -/
theorem current : Reads t Reading.current (i :: after) (i :: after) (·.StandsFor t i) := by
  intro r hr hbefore
  obtain ⟨token, ts, htoken, -, htokens⟩ := List.forall₂_cons_right_iff.1 hbefore
  refine ⟨token, r, ?_, hr, hbefore, rfl, htoken⟩
  change some (r.tokens.headD _, r) = _
  rw [htokens, List.headD_cons]

/-- The element at the front is looked at. -/
theorem lexeme : Reads t Reading.lexeme (i :: after) (i :: after) (· = i.lexeme) :=
  current.bind fun _ ht => .pure ht.lexeme

/-- The token at the front is left behind. -/
theorem advance : Reads t Reading.advance (i :: after) after (fun _ => True) := by
  intro r hr hbefore
  obtain ⟨token, ts, -, hafter, htokens⟩ := List.forall₂_cons_right_iff.1 hbefore
  refine ⟨(), { r with tokens := r.tokens.drop 1, count := r.count - 1 }, rfl, ⟨?_, hr.level⟩,
    ?_, rfl, trivial⟩
  · have := hr.count
    simp only [List.length_drop]
    omega
  · simpa only [Reader.IsAt, htokens, List.drop_succ_cons, List.drop_zero] using hafter

/-- Whether a sign stands at the front is looked up. -/
theorem isAt : Reads t (Reading.isAt s) (i :: after) (i :: after) (· = (i.lexeme == .sign s)) :=
  lexeme.bind fun _ hl => .pure (by rw [hl])

/-- Whether a semicolon stands at the front is looked up. -/
theorem isAtSemicolon :
    Reads t Reading.isAtSemicolon (i :: after) (i :: after) (· = i.lexeme.isSemicolon) :=
  lexeme.bind fun _ hl => .pure (by rw [hl]; cases i.lexeme <;> rfl)

/-- Whether a name stands at the front is looked up. -/
theorem isAtName : Reads t Reading.isAtName (i :: after) (i :: after) (· = i.lexeme.isName) :=
  lexeme.bind fun _ hl => .pure (by rw [hl]; cases i.lexeme <;> rfl)

/-- Whether one of several signs stands at the front is looked up. -/
theorem isAtAny {ss : List String} :
    Reads t (Reading.isAtAny ss) (i :: after) (i :: after) (· = i.lexeme.isAmong ss) :=
  lexeme.bind fun _ hl => .pure (by rw [hl]; cases i.lexeme <;> rfl)

/-- The way for a sign is taken where it stands. -/
theorem ifAt {x y : Reading α} {post : α → Prop}
    (hx : Reads t x (⟨n, .sign s⟩ :: before) after post) :
    Reads t (Reading.isAt s >>= fun b => if b = true then x else y) (⟨n, .sign s⟩ :: before) after
      post :=
  isAt.bind fun b hb => by rwa [hb, if_pos (beq_self_eq_true _)]

/-- The way for a sign is not taken where it does not stand. -/
theorem ifNotAt {x y : Reading α} {post : α → Prop} (hi : i.lexeme ≠ .sign s)
    (hy : Reads t y (i :: before) after post) :
    Reads t (Reading.isAt s >>= fun b => if b = true then x else y) (i :: before) after post :=
  isAt.bind fun b hb => by rwa [hb, if_neg (by simpa using hi)]

/-- A sign that stands at the front is read. -/
theorem expect : Reads t (Reading.expect s) (⟨n, .sign s⟩ :: after) after (t.Has n s) := by
  refine current.bind fun token ht => ?_
  simp only [ht.lexeme, beq_self_eq_true, if_true]
  exact advance.bind fun _ _ => .pure (ht.place s rfl)

/-- A name that stands at the front is read. -/
theorem name {text : String} :
    Reads t Reading.name (⟨n, .name text⟩ :: after) after (Name.IsOn t n text) := by
  refine current.bind fun token ht => ?_
  simp only [ht.lexeme]
  exact advance.bind fun _ _ => .pure ⟨rfl, ht.place text rfl⟩

/-- The end of a line is read as the end of a statement, beside which no comment stands. -/
theorem finish :
    Reads t Reading.finish (⟨n, .semicolon false⟩ :: after) after (fun cs => cs = []) := by
  refine current.bind fun token ht => ?_
  simp only [ht.lexeme]
  exact advance.bind fun _ _ => .pure ht.aside

/-- There are more steps to take than elements ahead. -/
theorem fuel : Reads t Reading.fuel before before (before.length < ·) := by
  intro r hr hbefore
  refine ⟨r.count + 1, r, rfl, hr, hbefore, rfl, ?_⟩
  rw [← List.Forall₂.length_eq hbefore]
  exact Nat.lt_succ_of_le hr.count

/-! ## Readings in a setting -/

/-- What is read in brackets comes out of them. -/
theorem deeper {x : Reading α} {post : α → Prop} (hx : Reads t x before after post) :
    Reads t (Reading.deeper x) before after post := by
  intro r hr hbefore
  -- The reader goes one level down before `x` and comes up again after it.
  have hlevel := hr.level
  obtain ⟨a, r', hxr, hr', hafter, hlevel', hpost⟩ :=
    hx { r with level := r.level + 1 } ⟨hr.count, by simp only; omega⟩ hbefore
  simp only at hlevel'
  refine ⟨a, { r' with level := r'.level - 1 }, ?_, ⟨hr'.count, ?_⟩, hafter, ?_, hpost⟩
  · change (x { r with level := r.level + 1 }).bind _ = _
    rw [hxr]
    rfl
  · simp only
    omega
  · simp only
    omega

/-- What is read on either side of an assignment is read. -/
theorem asValue {x : Reading α} {post : α → Prop} {inValue : Bool}
    (hx : Reads t x before after post) : Reads t (Reading.asValue inValue x) before after post := by
  intro r hr hbefore
  obtain ⟨a, r', hxr, hr', hafter, hlevel, hpost⟩ :=
    hx { r with inValue } ⟨hr.count, hr.level⟩ hbefore
  refine ⟨a, { r' with inValue := r.inValue }, ?_, ⟨hr'.count, hr'.level⟩, hafter, hlevel, hpost⟩
  change (x { r with inValue }).bind _ = _
  rw [hxr]
  rfl

/-- A reading that ends on a given level, wherever it starts. -/
def BackAt {α : Type} (t : LineTable) (level : Int) (x : Reading α) (before after : List Item)
    (post : α → Prop) : Prop :=
  ∀ r : Reader, r.IsSound → r.IsAt t before →
    ∃ a r', x r = some (a, r') ∧ r'.IsSound ∧ r'.IsAt t after ∧ r'.level = level ∧ post a

/-- A reading after another that ends on a given level. -/
theorem bindBack {x : Reading α} {f : α → Reading β} {mid : α → Prop} {post : β → Prop}
    {level : Int} (hx : Reads t x before middle mid)
    (hf : ∀ a, mid a → BackAt t level (f a) middle after post) :
    BackAt t level (x >>= f) before after post := by
  intro r hr hbefore
  obtain ⟨a, r₁, hxr, hr₁, hmiddle, -, hmid⟩ := hx r hr hbefore
  obtain ⟨b, r₂, hfr, hr₂, hafter, hlevel, hpost⟩ := hf a hmid r₁ hr₁ hmiddle
  refine ⟨b, r₂, ?_, hr₂, hafter, hlevel, hpost⟩
  change (x r).bind (fun p => f p.1 p.2) = some (b, r₂)
  rw [hxr, Option.bind_some, hfr]

/-- A value is given once the level is set back. -/
theorem setLevel {level : Int} (hlevel : 0 ≤ level) {a : α} {post : α → Prop} (h : post a) :
    BackAt t level (do modify fun r : Reader => { r with level }; Pure.pure a) before before
      post := by
  intro r hr hbefore
  exact ⟨a, { r with level }, rfl, ⟨hr.count, hlevel⟩, hbefore, rfl, h⟩

/-- A reading one level down that sets the level back at its end. -/
theorem inBrackets {f : Reader → Reading α} {post : α → Prop}
    (h : ∀ r : Reader, 0 ≤ r.level → BackAt t r.level (f r) before after post) :
    Reads t (do
      let r ← get
      modify fun s => { s with level := r.level + 1 }
      f r) before after post := by
  intro r hr hbefore
  have hlevel := hr.level
  exact h r hlevel { r with level := r.level + 1 } ⟨hr.count, by simp only; omega⟩ hbefore

/-! ## Loops -/

/-- The elements of items with commas between them. -/
def separated {ι : Type} (f : ι → List Lexeme) (xs : List ι) : List Lexeme :=
  [Lexeme.sign ","].intercalate (xs.map f)

/-- Items with commas between them are read up to a closing sign, when each of them is read up to
either sign. -/
theorem upTo {ι : Type} {closing : String} {item : Reading α} {f : ι → List Lexeme} {xs : List ι}
    {post : ι → α → Prop} (hclosing : closing ≠ ",")
    (hitem : ∀ x ∈ xs, ∀ s rest, s = "," ∨ s = closing →
      Reads t item (Item.on n (f x) ++ ⟨n, .sign s⟩ :: rest) (⟨n, .sign s⟩ :: rest) (post x))
    (hhead : ∀ x ∈ xs, ∃ l ls, f x = l :: ls ∧ l ≠ .sign closing) {k : Nat}
    (hk : (Item.on n (separated f xs) ++ ⟨n, .sign closing⟩ :: after).length < k) :
    Reads t (Reading.upTo closing item k) (Item.on n (separated f xs) ++ ⟨n, .sign closing⟩ :: after)
      (⟨n, .sign closing⟩ :: after) (List.Forall₂ post xs) := by
  -- The induction is on the items; `k` bounds the elements ahead, and each round takes some.
  induction xs generalizing k with
  | nil =>
    cases k with
    | zero => exact absurd hk (Nat.not_lt_zero _)
    | succ k =>
      rw [Reading.upTo]
      exact ifAt (.pure .nil)
  | cons x xs ih =>
    -- No item begins with the closing sign, so the loop goes on with the item.
    obtain ⟨l, ls, hx, hl⟩ := hhead x List.mem_cons_self
    have hread := hitem x List.mem_cons_self
    cases k with
    | zero => exact absurd hk (Nat.not_lt_zero _)
    | succ k =>
      rw [Reading.upTo]
      cases xs with
      | nil =>
        have hitem := hread closing after (.inr rfl)
        simp only [separated, List.map_cons, List.map_nil, List.intercalate_singleton]
        rw [hx, Item.on_cons, List.cons_append] at hitem ⊢
        refine ifNotAt hl (hitem.bind fun a ha => ifNotAt ?_ (ifAt (.pure (.cons ha .nil))))
        simpa using hclosing
      | cons y ys =>
        have hrest := ih (fun z hz => hitem z (List.mem_cons_of_mem x hz))
          (fun z hz => hhead z (List.mem_cons_of_mem x hz)) (k := k) ?_
        · have hitem := hread "," (Item.on n (separated f (y :: ys)) ++ ⟨n, .sign closing⟩ :: after)
            (.inl rfl)
          simp only [separated, List.map_cons, List.intercalate_cons_cons, List.append_assoc,
            Item.on_append, Item.on_cons, List.cons_append, List.nil_append] at hitem ⊢
          rw [hx, Item.on_cons, List.cons_append] at hitem ⊢
          exact ifNotAt hl (hitem.bind fun a ha => ifAt (advance.bind fun _ _ =>
            hrest.bind fun as has => .pure (.cons ha has)))
        · simp only [separated, List.map_cons, List.intercalate_cons_cons, List.append_assoc,
            List.length_append, List.length_cons, Item.length_on] at hk ⊢
          omega

/-- One item is read as a series, when no comma follows it. -/
theorem series_one {item : Reading α} {post : α → Prop}
    (hitem : Reads t item before (i :: after) post) (hi : i.lexeme ≠ .sign ",") {k : Nat}
    (hk : 0 < k) :
    Reads t (Reading.series item k) before (i :: after) (fun as => ∃ a, as = [a] ∧ post a) := by
  obtain ⟨k, rfl⟩ := Nat.exists_eq_succ_of_ne_zero (Nat.ne_of_gt hk)
  rw [Reading.series]
  exact hitem.bind fun a ha => ifNotAt hi (.pure ⟨a, rfl, ha⟩)

/-- Items one after the other are read as long as there is one. -/
theorem whileMore {ι : Type} {more : Reading Bool} {item : Reading α} {f : ι → List Item}
    {xs : List ι} {post : ι → α → Prop}
    (hmore : ∀ x ∈ xs, ∀ rest, Reads t more (f x ++ rest) (f x ++ rest) (· = true))
    (hitem : ∀ x ∈ xs, ∀ rest, Reads t item (f x ++ rest) rest (post x))
    (hne : ∀ x ∈ xs, f x ≠ []) (hend : Reads t more after after (· = false)) {k : Nat}
    (hk : (xs.flatMap f ++ after).length < k) :
    Reads t (Reading.whileMore more item k) (xs.flatMap f ++ after) after
      (List.Forall₂ post xs) := by
  induction xs generalizing k with
  | nil =>
    cases k with
    | zero => exact absurd hk (Nat.not_lt_zero _)
    | succ k =>
      rw [Reading.whileMore]
      refine hend.bind fun b hb => ?_
      rw [hb]
      exact .pure .nil
  | cons x xs ih =>
    -- An item has at least one element, so that one step less is enough for the others.
    rw [List.forall_mem_cons] at hne
    have hpos := List.length_pos_iff.2 hne.1
    cases k with
    | zero => exact absurd hk (Nat.not_lt_zero _)
    | succ k =>
      have hrest := ih (fun y hy => hmore y (List.mem_cons_of_mem x hy))
        (fun y hy => hitem y (List.mem_cons_of_mem x hy)) hne.2 (k := k) ?_
      · rw [Reading.whileMore, List.flatMap_cons, List.append_assoc]
        refine (hmore x List.mem_cons_self _).bind fun b hb => ?_
        rw [hb]
        exact (hitem x List.mem_cons_self _).bind fun a ha => hrest.bind fun as has =>
          .pure (.cons ha has)
      · simp only [List.flatMap_cons, List.length_append] at hk ⊢
        omega

/-- A value that no step changes stays as it is. -/
theorem iterate_done {step : α → Reading (Option α)} {a : α}
    (hstep : Reads t (step a) before before (· = none)) {n : Nat} (hn : before.length < n) :
    Reads t (Reading.iterate step n a) before before (· = a) := by
  cases n with
  | zero => exact absurd hn (Nat.not_lt_zero _)
  | succ n =>
    rw [Reading.iterate]
    refine hstep.bind fun b hb => ?_
    rw [hb]
    exact .pure rfl

/-- A step that takes elements changes a value, and the steps after it change it further. -/
theorem iterate_step {step : α → Reading (Option α)} {a : α} {mid post : α → Prop}
    (hstep : Reads t (step a) before middle (fun b? => ∃ b, b? = some b ∧ mid b))
    (hlt : middle.length < before.length)
    (hrest : ∀ b, mid b → ∀ m, middle.length < m →
      Reads t (Reading.iterate step m b) middle after post)
    {n : Nat} (hn : before.length < n) :
    Reads t (Reading.iterate step n a) before after post := by
  cases n with
  | zero => exact absurd hn (Nat.not_lt_zero _)
  | succ n =>
    rw [Reading.iterate]
    refine hstep.bind fun b? hb => ?_
    obtain ⟨b, rfl, hmid⟩ := hb
    exact hrest b hmid n (by omega)

end Reads

end NodeFamily.Layout
