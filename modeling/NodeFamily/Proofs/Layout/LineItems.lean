import NodeFamily.Proofs.ControlCharacters
import NodeFamily.Proofs.Layout.Places
import NodeFamily.Proofs.Layout.Reads

/-!
# The elements of lines of code

The elements of a line of code stand on that line of the text (`stands_linesItems`), each at the
position of its piece, and a comment that is a line by itself begins its line.
-/

namespace NodeFamily.Layout

/-- An element with its position is an element on its line. -/
structure Stands (t : LineTable) (item : Nat × Lexeme) (i : Item) : Prop where
  /-- The element. -/
  lexeme : item.2 = i.lexeme
  /-- There is such a position. -/
  isPosition : 0 < item.1
  /-- The position is on the line. -/
  line : t.line item.1 = i.line
  /-- The place. -/
  place : ∀ text, i.lexeme.text? = some text → t.Has i.line text item.1

namespace Piece

/-! ## Lines of code -/

/-- Whether a piece is neither the end of a line nor a comment. -/
def isCode : Piece → Bool
  | lineBreak | comment _ => false
  | _ => true

/-- A line of code: well-formed pieces, of which none but the first one is the keyword of a type
declaration. -/
structure IsCode (line : List Piece) : Prop where
  sound : ∀ p ∈ line, p.IsSound
  code : ∀ p ∈ line, p.isCode = true
  opens : ∀ p ∈ line.tail, p ≠ .keyword "type"

/-- The elements that pieces add one after the other. -/
def lexemesFrom (ready : Bool) : List Piece → List Lexeme
  | [] => []
  | p :: ps => p.lexemes ready ++ lexemesFrom (p.readyAfter ready) ps

/-- The elements of a line with its end. -/
def lineLexemes (line : List Piece) : List Lexeme := lexemesFrom false (line ++ [lineBreak])

/-- No piece of code ends a line. -/
theorem not_mem_chars {p : Piece} (hp : p.IsSound) (hcode : p.isCode = true) : '\n' ∉ p.chars := by
  have hword : ∀ {t : String}, hasIdentifierShape t.toList = true → '\n' ∉ t.toList := by
    intro t ht hc
    obtain ⟨-, -, -, -, hall⟩ := exists_of_hasIdentifierShape ht
    exact absurd (hall _ hc) (by decide)
  cases p with
  | name t => exact hword (of_isIdentifier hp).1
  | keyword t => exact hword (hasIdentifierShape_of_keyword hp)
  | sign t =>
    have hall : ∀ t ∈ closedSigns ++ openSigns, '\n' ∉ t.toList := by decide
    exact hall t (List.mem_append.2 hp)
  | quoted t => exact fun hc => (isPlainChar_of_mem_quote hc).1 rfl
  | blank c =>
    rcases hp with rfl | rfl <;> decide
  | lineBreak => exact absurd hcode Bool.false_ne_true
  | comment t => exact absurd hcode Bool.false_ne_true

/-- No line of code is broken. -/
theorem IsCode.not_mem {line : List Piece} (h : IsCode line) : '\n' ∉ charsOf line := by
  intro hmem
  obtain ⟨p, hp, hc⟩ := List.mem_flatMap.1 hmem
  exact not_mem_chars (h.sound p hp) (h.code p hp) hc

/-- The text of an element is that of its piece, which breaks no line. Only the keyword of a type
declaration is written as that. -/
theorem text_of_mem_lexemes {p : Piece} (hp : p.IsSound) {ready : Bool} {l : Lexeme}
    (hl : l ∈ p.lexemes ready) {text : String} (htext : l.text? = some text) :
    text.toList = p.chars ∧ (∀ c ∈ text.toList, Page.isBreak c = false) ∧
      (text = "type" → p = .keyword "type") := by
  have hbreak : ∀ {c : Char}, Text.isControl c = false → Page.isBreak c = false := by
    intro c hc
    have hn : c ≠ '\n' ∧ c ≠ '\x0c' := by
      constructor <;> (rintro rfl; exact absurd hc (by decide))
    simpa [Page.isBreak] using hn
  have hword : ∀ {t : String}, hasIdentifierShape t.toList = true →
      ∀ c ∈ t.toList, Page.isBreak c = false := by
    intro t ht c hc
    obtain ⟨-, -, -, -, hall⟩ := exists_of_hasIdentifierShape ht
    exact hbreak (Text.isControl_of_continuesIdentifier (hall c hc))
  cases p with
  | name t =>
    obtain rfl := List.mem_singleton.1 hl
    obtain rfl := Option.some.inj htext
    refine ⟨rfl, hword (of_isIdentifier hp).1, ?_⟩
    rintro rfl
    have hnot : isIdentifier "type" = false := by decide
    exact absurd (hnot.symm.trans hp) Bool.false_ne_true
  | keyword t =>
    obtain rfl := List.mem_singleton.1 hl
    obtain rfl := Option.some.inj htext
    exact ⟨rfl, hword (hasIdentifierShape_of_keyword hp), fun h => by rw [h]⟩
  | sign t =>
    obtain rfl := List.mem_singleton.1 hl
    obtain rfl := Option.some.inj htext
    have hall : ∀ t ∈ closedSigns ++ openSigns,
        t.toList.any Page.isBreak = false ∧ t ≠ "type" := by decide
    obtain ⟨hunbroken, hne⟩ := hall t (List.mem_append.2 hp)
    exact ⟨rfl, by simpa using hunbroken, fun h => absurd h hne⟩
  | quoted t =>
    obtain rfl := List.mem_singleton.1 hl
    obtain rfl := Option.some.inj htext
    refine ⟨rfl, fun c hc => hbreak (Text.isUnbroken_quote t c hc), fun h => ?_⟩
    have hhead := congrArg (·.toList.head?) h
    rw [toList_quote, List.head?_cons] at hhead
    exact absurd hhead (by decide)
  | blank c => exact absurd hl List.not_mem_nil
  | comment t => exact absurd hl List.not_mem_nil
  | lineBreak =>
    rw [lexemes] at hl
    split at hl
    · obtain rfl := List.mem_singleton.1 hl
      exact absurd htext (by simp [Lexeme.text?])
    · exact absurd hl List.not_mem_nil

/-! ## Places -/

/-- The number of octets of lines. -/
def octetsOf (lines : List (List Piece)) : Nat := octets (charsOf (ofLines lines))

/-- The places of the text of lines. -/
def tableOf (lines : List (List Piece)) : LineTable := .ofText (charsOf (ofLines lines))

/-- The text of lines is that of the first ones, of one more, and of the others. -/
theorem charsOf_ofLines_append (before : List (List Piece)) (line : List Piece)
    (after : List (List Piece)) :
    charsOf (ofLines (before ++ line :: after)) =
      (before.map charsOf).flatMap (· ++ ['\n']) ++ (charsOf line ++ '\n' ::
        charsOf (ofLines after)) := by
  simp [Emission.charsOf_ofLines, List.flatMap_map]

/-- The number of octets of lines and one more. -/
theorem octetsOf_append_singleton (before : List (List Piece)) (line : List Piece) :
    octetsOf (before ++ [line]) = octetsOf before + octets (charsOf line) + 1 := by
  have hsize : Char.utf8Size '\n' = 1 := by decide
  unfold octetsOf
  simp [Emission.charsOf_ofLines, hsize]
  omega

/-- The end of a line takes one octet. -/
theorem octets_charsOf_lineBreak (line : List Piece) :
    octets (charsOf (line ++ [lineBreak])) = octets (charsOf line) + 1 := by
  have hbreak : Char.utf8Size '\n' = 1 := by decide
  rw [charsOf, List.flatMap_append, octets_append]
  simp [charsOf, chars, hbreak]

/-- The place of what stands in a line. -/
theorem place_tableOf {before : List (List Piece)} {line : List Piece}
    (hbefore : ∀ l ∈ before, '\n' ∉ charsOf l) (hline : '\n' ∉ charsOf line) {k : Nat}
    (hk : k ≤ octets (charsOf line)) (after : List (List Piece)) :
    (tableOf (before ++ line :: after)).place (octetsOf before + k + 1) =
      ⟨octetsOf before + k, before.length + 1, k + 1⟩ := by
  have hplace := LineTable.place_of_line (List.forall_mem_map.2 hbefore) hline hk
    (charsOf (ofLines after))
  rw [← charsOf_ofLines_append, List.length_map] at hplace
  have hsize : octets ((before.map charsOf).flatMap (· ++ ['\n'])) = octetsOf before := by
    rw [octetsOf, Emission.charsOf_ofLines, List.flatMap_map]
  rw [hsize] at hplace
  exact hplace

/-! ## Elements -/

variable {before after : List (List Piece)} {line : List Piece}

/-- The element of a piece stands where the piece does. -/
theorem IsCode.stands (h : IsCode line) (hbefore : ∀ l ∈ before, '\n' ∉ charsOf l)
    {done rest : List Piece} {p : Piece} (hline : line = done ++ p :: rest) {ready : Bool}
    {l : Lexeme} (hl : l ∈ p.lexemes ready) :
    Stands (tableOf (before ++ line :: after)) (octetsOf before + octets (charsOf done) + 1, l)
      ⟨before.length + 1, l⟩ := by
  have hp : p ∈ line := by simp [hline]
  have hchars : octets (charsOf line) =
      octets (charsOf done) + (octets p.chars + octets (charsOf rest)) := by
    rw [hline]
    simp [charsOf]
  have hplace : ∀ k ≤ octets (charsOf line), (tableOf (before ++ line :: after)).place
      (octetsOf before + k + 1) = ⟨octetsOf before + k, before.length + 1, k + 1⟩ := fun k hk =>
    place_tableOf hbefore h.not_mem hk after
  have hstart := hplace (octets (charsOf done)) (by omega)
  refine ⟨rfl, Nat.succ_pos _, congrArg Place.line hstart, fun text htext => ?_⟩
  obtain ⟨hsame, hunbroken, hopens⟩ := text_of_mem_lexemes (h.sound p hp) hl htext
  refine ⟨?_, hunbroken, Nat.succ_pos _, Nat.succ_pos _, congrArg Place.line hstart, ?_, ?_⟩
  · rw [ne_eq, ← String.toList_eq_nil_iff, hsame]
    exact chars_ne_nil (h.sound p hp)
  · have hstop := hplace (octets (charsOf done) + octets p.chars) (by omega)
    rw [hsame, Nat.add_right_comm, Nat.add_assoc (octetsOf before)]
    exact congrArg Place.line hstop
  · intro htype
    have hfirst : done = [] := by
      cases done with
      | nil => rfl
      | cons q done => exact absurd (hopens htype) (h.opens p (by simp [hline]))
    subst hfirst
    exact congrArg Place.column hstart

/-- The elements of what is left of a line stand where its pieces do. -/
theorem IsCode.forall₂_itemsFrom (h : IsCode line) (hbefore : ∀ l ∈ before, '\n' ∉ charsOf l)
    (after : List (List Piece)) {done rest : List Piece} (hline : line = done ++ rest)
    (ready : Bool) :
    List.Forall₂ (Stands (tableOf (before ++ line :: after)))
      (itemsFrom (octetsOf before + octets (charsOf done)) ready (rest ++ [lineBreak]))
      (Item.on (before.length + 1) (lexemesFrom ready (rest ++ [lineBreak]))) := by
  induction rest generalizing done ready with
  | nil =>
    rw [List.append_nil] at hline
    subst hline
    have hend := place_tableOf hbefore h.not_mem (Nat.le_refl _) after
    cases ready with
    | false => exact .nil
    | true =>
      refine .cons ⟨rfl, Nat.succ_pos _, congrArg Place.line hend, ?_⟩ .nil
      intro text htext
      exact absurd htext (by simp [Lexeme.text?])
  | cons p rest ih =>
    have hp : p.isCode = true := h.code p (by simp [hline])
    have hitems : p.items (octetsOf before + octets (charsOf done)) ready =
        (p.lexemes ready).map (octetsOf before + octets (charsOf done) + 1, ·) := by
      cases p with
      | comment t => exact absurd hp Bool.false_ne_true
      | _ => rfl
    have hoffset : octetsOf before + octets (charsOf done) + octets p.chars =
        octetsOf before + octets (charsOf (done ++ [p])) := by
      simp [charsOf, Nat.add_assoc]
    rw [List.cons_append, itemsFrom, lexemesFrom, Item.on_append, hitems, hoffset]
    refine List.rel_append ?_ (ih (by simp [hline]) _)
    rw [Item.on, List.forall₂_map_left_iff, List.forall₂_map_right_iff, List.forall₂_same]
    exact fun l hl => h.stands hbefore hline hl

/-- The elements of lines of code stand on those lines. -/
theorem stands_linesItems {block : List (List Piece)} (hbefore : ∀ l ∈ before, '\n' ∉ charsOf l)
    (h : ∀ line ∈ block, IsCode line) (after : List (List Piece)) :
    List.Forall₂ (Stands (tableOf (before ++ (block ++ after)))) (linesItems (octetsOf before) block)
      (Item.ofLines (before.length + 1) (block.map lineLexemes)) := by
  induction block generalizing before with
  | nil => exact .nil
  | cons line block ih =>
    rw [List.forall_mem_cons] at h
    have hbefore' : ∀ l ∈ before ++ [line], '\n' ∉ charsOf l :=
      List.forall_mem_append.2 ⟨hbefore, List.forall_mem_singleton.2 h.1.not_mem⟩
    have hline := h.1.forall₂_itemsFrom hbefore (block ++ after) (List.nil_append line).symm false
    have hrest := ih hbefore' h.2
    rw [octetsOf_append_singleton, List.append_assoc, List.singleton_append, List.length_append,
      List.length_singleton, Nat.add_assoc (octetsOf before),
      ← octets_charsOf_lineBreak] at hrest
    exact List.rel_append hline hrest

end Piece

end NodeFamily.Layout
