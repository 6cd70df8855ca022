import NodeFamily.Layout.Pen.Basic
import NodeFamily.Proofs.Layout.Places
import NodeFamily.Proofs.Layout.Reads

/-!
# Sheets

A sheet is what matters of a page between two items: the ink, the white space held back, and the
lines reached in the source and in what is written. `Draws` follows an act of writing from sheet to
sheet. As long as no comment has to be written, an item goes behind the white space held back and
nothing else happens (`Sheet.put`), whatever the place in the source is.
-/

namespace NodeFamily.Layout

/-- What matters of a page between two items. -/
structure Sheet where
  /-- What is written. -/
  ink : List Ink
  /-- The white space held back. -/
  waiting : List Space
  /-- How far lines are indented. -/
  indent : Nat
  /-- The line in the source. -/
  line : Nat
  /-- The line in the source on which the last item ends. -/
  lastLine : Nat
  /-- The line that is written. -/
  outLine : Nat
  /-- Whether something stands on the line that is written. -/
  begun : Bool
  /-- Whether the line of the next item is asked for. -/
  asks : Bool
  /-- The line that was asked for. -/
  asked : Nat

/-- Whether white space breaks the line. -/
def Space.isBreak : Space → Bool
  | .newline | .newSection => true
  | _ => false

/-- A page holds what a sheet says, and comments that are not written yet. -/
structure Page.Holds (t : LineTable) (cs : List WaitingGroup) (σ : Sheet) (p : Page) : Prop where
  table : p.table = t
  comments : p.comments = cs
  ink : p.ink = σ.ink.reverse
  size : p.size = σ.ink.length
  waiting : p.waiting = σ.waiting
  indent : p.indent = σ.indent
  line : p.place.line = σ.line
  lastLine : p.lastPlace.line = σ.lastLine
  outLine : p.outLine = σ.outLine
  column : 0 < p.outColumn
  begun : σ.begun = decide (p.outColumn ≠ 1)
  asks : p.asksLine = σ.asks
  asked : p.askedLine = σ.asked
  endsCells : p.endsCells = false
  newConstraints : p.newConstraints = []
  oldConstraints : p.oldConstraints = []
  last : p.last ≠ .integer ∧ p.last ≠ .sign "/"

/-- A page is as a sheet says between two items. -/
structure Page.Shows (t : LineTable) (cs : List WaitingGroup) (σ : Sheet) (p : Page) : Prop
    extends p.Holds t cs σ where
  /-- The place in the source is one. -/
  isValid : 0 < p.place.line
  /-- White space comes last when it is held back. -/
  held : σ.waiting ≠ [] → p.last = .space
  /-- A line break that is held back ends no statement. -/
  ready : p.waiting.any Space.isBreak = true → p.ready = false

namespace Sheet

/-- Writes white space. -/
def putSpace (c : Char) (σ : Sheet) : Sheet :=
  if Page.isBreak c then
    { σ with ink := σ.ink ++ [.char c], line := σ.line + 1, outLine := σ.outLine + 1,
             begun := false }
  else { σ with ink := σ.ink ++ [.char c], begun := true }

/-- Writes white space that was held back. -/
def putSpaces (σ : Sheet) : List Space → Sheet
  | [] => σ
  | .newline :: .unindent :: rest | .newSection :: .unindent :: rest =>
    putSpaces { σ with indent := σ.indent - 1 } (.newSection :: rest)
  | .none :: rest => putSpaces σ rest
  | .blank :: rest => putSpaces (σ.putSpace ' ') rest
  | .cell :: rest => putSpaces (σ.putSpace '\x0b') rest
  | .newline :: rest => putSpaces (σ.putSpace '\n') rest
  | .newSection :: rest => putSpaces (σ.putSpace '\x0c') rest
  | .indent :: rest => putSpaces { σ with indent := σ.indent + 1 } rest
  | .unindent :: rest => putSpaces { σ with indent := σ.indent - 1 } rest
termination_by spaces => spaces.length

/-- Writes all white space held back. -/
def release (σ : Sheet) : Sheet := { σ.putSpaces σ.waiting with waiting := [] }

/-- Writes an item that stands on a line of the source. -/
def put (line : Nat) (ink : List Ink) (σ : Sheet) : Sheet :=
  let s := σ.release
  { s with
    ink := s.ink ++ ((if s.begun then [] else List.replicate s.indent (.char '\t')) ++ ink)
    line, lastLine := line, begun := true, asks := false
    asked := if s.asks then s.outLine else s.asked }

/-- Holds back white space. -/
def hold (s : Space) (σ : Sheet) : Sheet :=
  if s = .none then σ else { σ with waiting := σ.waiting ++ [s] }

/-- Goes to a line of the source. -/
def goTo (line : Nat) (σ : Sheet) : Sheet := { σ with line }

end Sheet

/-- An act of writing leads from a sheet to another and gives a value. The comments `cs` are left
before it, and `cs'` after it. -/
def Leads {α : Type} (t : LineTable) (cs cs' : List WaitingGroup) (act : Writing α) (σ : Sheet)
    (a : α) (σ' : Sheet) : Prop :=
  ∀ p : Page, p.Shows t cs σ → ∃ p', act.run p = (a, p') ∧ p'.Shows t cs' σ'

/-- An act of writing that writes none of the comments left. -/
abbrev Draws {α : Type} (t : LineTable) (cs : List WaitingGroup) (act : Writing α) (σ : Sheet)
    (a : α) (σ' : Sheet) : Prop :=
  Leads t cs cs act σ a σ'

/-! ## White space -/

namespace Page.Holds

variable {t : LineTable} {cs : List WaitingGroup} {σ : Sheet} {p : Page}

/-- White space is written on the sheet as on the page. -/
theorem putSpace (h : p.Holds t cs σ) (c : Char) : (p.putSpace c 1).Holds t cs (σ.putSpace c) := by
  have hcolumn := h.column
  by_cases hc : Page.isBreak c = true
  · have hspace : p.putSpace c 1 = { p with
        ink := .char c :: p.ink, size := p.size + 1,
        place := ⟨p.place.offset + 1, p.place.line + 1, 1⟩, outLine := p.outLine + 1,
        outColumn := 1, endsCells := false } := by
      simp [Page.putSpace, h.endsCells, hc]
    rw [hspace, Sheet.putSpace, if_pos hc]
    exact { h with
      ink := by simp [h.ink], size := by simp [h.size], line := by simp [h.line]
      outLine := by simp [h.outLine], column := Nat.one_pos, begun := by simp
      endsCells := rfl }
  · have hspace : p.putSpace c 1 = { p with
        ink := .char c :: p.ink, size := p.size + 1,
        place := ⟨p.place.offset + 1, p.place.line, p.place.column + 1⟩,
        outColumn := p.outColumn + 1, endsCells := false } := by
      simp [Page.putSpace, h.endsCells, hc]
    rw [hspace, Sheet.putSpace, if_neg hc]
    exact { h with
      ink := by simp [h.ink], size := by simp [h.size], column := Nat.succ_pos _
      begun := by simp; omega, endsCells := rfl }

/-- White space that was held back is written on the sheet as on the page. -/
theorem putSpaces (h : p.Holds t cs σ) (spaces : List Space) :
    (p.putSpaces spaces).Holds t cs (σ.putSpaces spaces) := by
  have hindent : ∀ {p : Page} {σ : Sheet}, p.Holds t cs σ → ∀ f : Nat → Nat,
      Page.Holds t cs { σ with indent := f σ.indent } { p with indent := f p.indent } :=
    fun h f => { h with indent := congrArg f h.indent }
  fun_induction Sheet.putSpaces σ spaces generalizing p with
  | case1 σ => rwa [Page.putSpaces]
  | case2 σ rest ih =>
    rw [Page.putSpaces]
    exact ih (hindent h (· - 1))
  | case3 σ rest ih =>
    rw [Page.putSpaces]
    exact ih (hindent h (· - 1))
  | case4 σ rest ih =>
    rw [Page.putSpaces]
    exact ih h
  | case5 σ rest ih =>
    rw [Page.putSpaces]
    exact ih (h.putSpace ' ')
  | case6 σ rest ih =>
    rw [Page.putSpaces]
    exact ih (h.putSpace '\x0b')
  | case7 σ rest hne ih =>
    rw [Page.putSpaces]
    · exact ih (h.putSpace '\n')
    · exact hne
  | case8 σ rest hne ih =>
    rw [Page.putSpaces]
    · exact ih (h.putSpace '\x0c')
    · exact hne
  | case9 σ rest ih =>
    rw [Page.putSpaces]
    exact ih (hindent h (· + 1))
  | case10 σ rest ih =>
    rw [Page.putSpaces]
    exact ih (hindent h (· - 1))

/-- All white space held back is written on the sheet as on the page. -/
theorem releaseAll (h : p.Holds t cs σ) : p.releaseAll.Holds t cs σ.release := by
  have hspaces := h.putSpaces σ.waiting
  rw [← h.waiting] at hspaces
  rw [Page.releaseAll, Page.release, List.take_length, List.drop_length, Sheet.release, ← h.waiting]
  exact { hspaces with waiting := rfl }

end Page.Holds

/-- Nothing is written when no white space is held back. -/
theorem Sheet.release_of_waiting_eq_nil {σ : Sheet} (h : σ.waiting = []) : σ.release = σ := by
  rw [Sheet.release, h, Sheet.putSpaces, ← h]

/-- White space takes no line back. -/
theorem Sheet.line_le_putSpaces (σ : Sheet) (spaces : List Space) :
    σ.line ≤ (σ.putSpaces spaces).line := by
  have hspace : ∀ (σ : Sheet) c, σ.line ≤ (σ.putSpace c).line := by
    intro σ c
    unfold Sheet.putSpace
    split
    · exact Nat.le_succ _
    · exact Nat.le_refl _
  fun_induction Sheet.putSpaces σ spaces with
  | case1 => exact Nat.le_refl _
  | case2 _ _ ih | case3 _ _ ih | case4 _ _ ih | case9 _ _ ih | case10 _ _ ih => exact ih
  | case5 _ _ ih | case6 _ _ ih => exact Nat.le_trans (hspace _ _) ih
  | case7 _ _ _ ih | case8 _ _ _ ih => exact Nat.le_trans (hspace _ _) ih

/-! ## Items -/

/-- The ink of a text. -/
def inkOf (text : String) : List Ink := text.toList.map .char

@[simp]
theorem inkOf_append (a b : String) : inkOf (a ++ b) = inkOf a ++ inkOf b := by simp [inkOf]

/-- The ink of a text that is taken as it is. -/
def fencedInk (text : String) : List Ink := .fence :: inkOf text ++ [.fence]

/-- A text that is not empty takes octets. -/
theorem octets_pos {text : String} (h : text ≠ "") : 0 < octets text.toList := by
  obtain ⟨c, rest, hc⟩ := List.exists_cons_of_ne_nil fun hnil => h (String.toList_eq_nil_iff.1 hnil)
  have := c.utf8Size_pos
  rw [hc, octets_cons]
  omega

/-- No comment stands before a place. -/
def Quiet (cs : List WaitingGroup) (next : Place) : Prop := ∀ g ∈ cs.head?, next.offset ≤ g.offset

namespace Page

variable {t : LineTable} {cs : List WaitingGroup} {σ : Sheet} {p : Page}

/-- No comment is written before a quiet place. -/
theorem Holds.hasCommentBefore (h : p.Holds t cs σ) {next : Place} (hquiet : Quiet cs next) :
    p.hasCommentBefore next = false := by
  rw [Page.hasCommentBefore, h.comments]
  cases hcs : cs.head? with
  | none => rfl
  | some g =>
    have := hquiet g hcs
    simp
    omega

/-- A text is written behind white space. -/
theorem Holds.putText (h : p.Holds t cs σ) (here : Place) (hhere : 0 < here.line) {text : String}
    (hne : text ≠ "") (hunbroken : ∀ c ∈ text.toList, isBreak c = false) (fenced : Bool) :
    (p.putText here text.toList fenced).Holds t cs { σ with
      ink := σ.ink ++ ((if σ.begun then [] else List.replicate σ.indent (.char '\t')) ++
        if fenced then fencedInk text else inkOf text)
      line := here.line, lastLine := here.line, begun := true } ∧
    0 < (p.putText here text.toList fenced).place.line := by
  have hpos := octets_pos hne
  have hbreaks : (text.toList.filter isBreak).length = 0 := by
    rw [List.length_eq_zero_iff, List.filter_eq_nil_iff]
    simpa using hunbroken
  have hvalid : here.isValid = true := decide_eq_true hhere
  have hink : ∀ q : Page, q.ink = p.ink → (if fenced = true then
      Ink.fence :: text.toList.map Ink.char ++ [.fence] else text.toList.map Ink.char) =
      if fenced then fencedInk text else inkOf text := fun _ _ => rfl
  have hcolumn := h.column
  unfold Page.putText
  dsimp only
  rw [hbreaks, hink p rfl]
  by_cases hbegun : p.outColumn = 1
  · have hσ : σ.begun = false := by simp [h.begun, hbegun]
    simp only [hbegun, beq_self_eq_true, if_true, putIndent, hvalid, Nat.lt_irrefl, if_false,
      decide_false, Bool.or_false, hσ, Bool.false_eq_true]
    refine ⟨?_, hhere⟩
    exact { h with
      ink := by simp [h.ink, h.indent]
      size := by simp [h.size, h.indent]; omega
      line := rfl, lastLine := rfl
      outLine := by simp [h.outLine], column := by dsimp only; omega
      begun := by simp; omega }
  · have hσ : σ.begun = true := by simp [h.begun, hbegun]
    have hne1 : (p.outColumn == 1) = false := by simpa using hbegun
    simp only [hne1, hvalid, Nat.lt_irrefl, if_false, if_true, decide_false, Bool.or_false, hσ,
      Bool.false_eq_true]
    refine ⟨?_, hhere⟩
    exact { h with
      ink := by simp [h.ink]
      size := by simp [h.size]
      line := rfl, lastLine := rfl
      outLine := by simp [h.outLine], column := by simp; omega
      begun := by simp; omega }

/-- A page that takes note of the line of the next item, if asked to. -/
def answer (p : Page) : Page :=
  if p.asksLine then { p with asksLine := false, askedLine := p.outLine } else p

/-- The line breaks of the source before an item that are left to write after the comments before
it, the last of which ended with a break or not. -/
def breaksLeft (next : Place) (broke : Bool) (p : Page) : Nat :=
  let n := if p.ready then 0 else min (next.line - p.place.line) maxBreaks
  if broke && n == maxBreaks then maxBreaks - 1 else n

/-- An item is put behind what goes before it. -/
theorem putItem_of_flush {mark : Mark} {q : Page} {broke dropped : Bool}
    (h : ({ p with last := mark } : Page).flush p.place mark = (q, broke, dropped)) (text : String)
    (fenced ready : Bool) :
    p.putItem mark text fenced ready =
      { ((if q.breaksLeft p.place broke > 0 then
          q.putSpace (if dropped then '\x0c' else '\n') (q.breaksLeft p.place broke)
        else q).answer.putText p.place text.toList fenced) with
        ready := ready && q.breaksLeft p.place broke == 0 } := by
  simp only [putItem, h]
  rfl

/-- The sheet takes note of the line as the page does. -/
theorem Holds.answer (h : p.Holds t cs σ) : p.answer.Holds t cs
    { σ with asks := false, asked := if σ.asks then σ.outLine else σ.asked } := by
  unfold Page.answer
  rw [← h.asks]
  split
  · exact { h with asks := rfl, asked := h.outLine }
  · next hasks => exact { h with asks := by simpa using hasks }

/-- An item is put behind what the comments and the white space before it have left. -/
theorem Shows.putItem_flushed {mark : Mark} {q : Page} {broke dropped : Bool}
    (h : ({ p with last := mark } : Page).flush p.place mark = (q, broke, dropped))
    (hq : Page.Holds t cs σ (if q.breaksLeft p.place broke > 0 then
      q.putSpace (if dropped then '\x0c' else '\n') (q.breaksLeft p.place broke) else q))
    (hwaiting : σ.waiting = []) (hvalid : 0 < p.place.line) {text : String} (hne : text ≠ "")
    (hunbroken : ∀ c ∈ text.toList, isBreak c = false) (fenced ready : Bool) :
    (p.putItem mark text fenced ready).Shows t cs
      (σ.put p.place.line (if fenced then fencedInk text else inkOf text)) := by
  rw [putItem_of_flush h, Sheet.put, Sheet.release_of_waiting_eq_nil hwaiting]
  obtain ⟨hholds, hvalid⟩ := hq.answer.putText _ hvalid hne hunbroken fenced
  refine { hholds with isValid := hvalid, held := ?_, ready := ?_ }
  · simp [hwaiting]
  · simp [hholds.waiting, hwaiting]

/-- An item is put behind the white space that is held back. -/
theorem Shows.putItem (h : p.Shows t cs σ) (hquiet : Quiet cs p.place) (mark : Mark)
    (hmark : mark ≠ .integer ∧ mark ≠ .sign "/") {text : String} (hne : text ≠ "")
    (hunbroken : ∀ c ∈ text.toList, isBreak c = false) (fenced ready : Bool) :
    (p.putItem mark text fenced ready).Shows t cs
      (σ.put σ.line (if fenced then fencedInk text else inkOf text)) := by
  have hmarked : ({ p with last := mark } : Page).Holds t cs σ := { h.toHolds with last := hmark }
  have hreleased := hmarked.releaseAll
  have hflush : ({ p with last := mark } : Page).flush p.place mark =
      (({ p with last := mark } : Page).releaseAll, false, false) := by
    rw [flush, hmarked.hasCommentBefore hquiet]
    rfl
  -- White space takes no line back, so that no line break of the source is left to write.
  have hnone : ({ p with last := mark } : Page).releaseAll.breaksLeft p.place false = 0 := by
    have hline := σ.line_le_putSpaces σ.waiting
    rw [breaksLeft, hreleased.line, h.line, Sheet.release, Nat.sub_eq_zero_of_le hline]
    simp
  have hput := Shows.putItem_flushed hflush (by rwa [hnone]) rfl h.isValid hne hunbroken fenced
    ready
  rwa [Sheet.put, Sheet.release_of_waiting_eq_nil rfl, h.line] at hput

/-- Only the note of a bracket changes when it is taken. -/
theorem noteOpened_eq (p : Page) : p.noteOpened = { p with opened := p.noteOpened.opened } := by
  unfold noteOpened
  split
  · rfl
  · rfl
  · rfl

/-- What matters of a page stays when note of a bracket is taken. -/
theorem Shows.noteOpened (h : p.Shows t cs σ) : p.noteOpened.Shows t cs σ := by
  rw [noteOpened_eq]
  exact { h with }

/-- White space is held back, as long as not too much of it is. -/
theorem Shows.hold (h : p.Shows t cs σ) {s : Space} (hs : s ≠ .none)
    (hlength : σ.waiting.length < waitingLimit) : (p.hold s).Shows t cs (σ.hold s) := by
  have hnoted := h.noteOpened
  rw [← h.waiting, ← show p.noteOpened.waiting = p.waiting by rw [noteOpened_eq]] at hlength
  have hhold : p.hold s = { p.noteOpened with
      waiting := p.noteOpened.waiting ++ [s], last := .space
      ready := p.noteOpened.ready && s != .newline && s != .newSection } := by
    unfold Page.hold
    simp [hs, Nat.ne_of_lt hlength]
  rw [hhold, Sheet.hold, if_neg hs]
  refine { hnoted with waiting := ?_, held := fun _ => rfl, last := ?_, ready := ?_ }
  · rw [hnoted.waiting]
  · simp
  · intro hbreak
    rw [List.any_append, Bool.or_eq_true] at hbreak
    rcases hbreak with hbreak | hbreak
    · rw [hnoted.ready hbreak]
      rfl
    · cases s with
      | newline | newSection => simp
      | _ => simp [Space.isBreak] at hbreak

/-- Whether a sign joins neither the one before it nor the one after it. -/
def isLoose (s : String) : Bool :=
  s.toList.head?.all fun c => !(['+', '-', '<', '&', '^', '/'].contains c)

/-- A sign joins none when it is loose or comes after white space. -/
theorem Shows.wouldJoin (h : p.Shows t cs σ) {s : String}
    (hs : isLoose s = true ∨ σ.waiting ≠ []) : wouldJoin p.last s.toList.head? = false := by
  obtain ⟨hinteger, hslash⟩ := h.last
  rcases hs with hs | hs
  · unfold Page.wouldJoin
    split
    · next heq _ => exact absurd heq hinteger
    · next heq _ => simp [isLoose, ‹s.toList.head? = _›] at hs
    · next heq _ => simp [isLoose, ‹s.toList.head? = _›] at hs
    · next heq _ => exact absurd heq hslash
    · next heq _ => simp [isLoose, ‹s.toList.head? = _›] at hs
    · next heq _ => simp [isLoose, ‹s.toList.head? = _›] at hs
    · next heq _ => simp [isLoose, ‹s.toList.head? = _›] at hs
    · next heq _ => simp [isLoose, ‹s.toList.head? = _›] at hs
    · rfl
  · rw [h.held hs]
    rfl

/-- A sign that joins none is put like any other item. -/
theorem Shows.putSign_eq (h : p.Shows t cs σ) {s : String}
    (hs : isLoose s = true ∨ σ.waiting ≠ []) :
    ∃ ready, p.putSign s = p.noteOpened.putItem (.sign s) s false ready := by
  unfold Page.putSign
  simp only [h.noteOpened.wouldJoin hs, Bool.false_eq_true, if_false]
  exact ⟨_, rfl⟩

/-- A sign is put behind the white space that is held back. -/
theorem Shows.putSign (h : p.Shows t cs σ) (hquiet : Quiet cs p.place) {s : String} (hne : s ≠ "")
    (hunbroken : ∀ c ∈ s.toList, isBreak c = false)
    (hs : isLoose s = true ∨ s = "&" ∧ σ.waiting ≠ []) :
    (p.putSign s).Shows t cs (σ.put σ.line (inkOf s)) := by
  have hplace : p.noteOpened.place = p.place := by rw [noteOpened_eq]
  have hslash : s ≠ "/" := by
    rintro rfl
    rcases hs with hs | hs
    · exact absurd hs (by decide)
    · exact absurd hs.1 (by decide)
  obtain ⟨ready, heq⟩ := h.putSign_eq (hs.imp_right And.right)
  rw [heq]
  rw [← hplace] at hquiet
  exact h.noteOpened.putItem hquiet _ ⟨by simp, by simpa using hslash⟩ hne hunbroken false ready

end Page

/-! ## Laws -/

namespace Sheet

variable (σ : Sheet) (line line' : Nat) (a b : List Ink)

@[simp]
theorem waiting_put : (σ.put line a).waiting = [] := rfl

@[simp]
theorem line_put : (σ.put line a).line = line := rfl

/-- White space is written the same from every line of the source. -/
theorem putSpaces_goTo (spaces : List Space) :
    ∃ m, (σ.goTo line).putSpaces spaces = (σ.putSpaces spaces).goTo m := by
  have hspace : ∀ (σ : Sheet) m c, ∃ m', (σ.goTo m).putSpace c = (σ.putSpace c).goTo m' := by
    intro σ m c
    unfold putSpace goTo
    split
    · exact ⟨_, rfl⟩
    · exact ⟨_, rfl⟩
  fun_induction putSpaces σ spaces generalizing line with
  | case1 => exact ⟨line, by rw [putSpaces]⟩
  | case2 σ rest ih | case3 σ rest ih | case4 σ rest ih | case9 σ rest ih | case10 σ rest ih =>
    rw [putSpaces]
    exact ih line
  | case5 σ rest ih =>
    rw [putSpaces]
    obtain ⟨m, hm⟩ := hspace σ line ' '
    rw [hm]
    exact ih m
  | case6 σ rest ih =>
    rw [putSpaces]
    obtain ⟨m, hm⟩ := hspace σ line '\x0b'
    rw [hm]
    exact ih m
  | case7 σ rest hne ih =>
    rw [putSpaces]
    · obtain ⟨m, hm⟩ := hspace σ line '\n'
      rw [hm]
      exact ih m
    · exact hne
  | case8 σ rest hne ih =>
    rw [putSpaces]
    · obtain ⟨m, hm⟩ := hspace σ line '\x0c'
      rw [hm]
      exact ih m
    · exact hne

/-- An item is put the same from every line of the source. -/
@[simp]
theorem put_goTo : (σ.goTo line').put line a = σ.put line a := by
  obtain ⟨m, hm⟩ := putSpaces_goTo σ line' σ.waiting
  unfold put release
  rw [show (σ.goTo line').waiting = σ.waiting from rfl, hm]
  rfl

/-- White space is written the same when the line of the next item is asked for. -/
theorem putSpaces_asks (spaces : List Space) (asks : Bool) :
    ({ σ with asks } : Sheet).putSpaces spaces = { σ.putSpaces spaces with asks } := by
  have hspace : ∀ (σ : Sheet) c, ({ σ with asks } : Sheet).putSpace c =
      { σ.putSpace c with asks } := by
    intro σ c
    unfold putSpace
    split <;> rfl
  fun_induction putSpaces σ spaces with
  | case1 => rw [putSpaces]
  | case2 σ rest ih | case3 σ rest ih | case4 σ rest ih | case9 σ rest ih | case10 σ rest ih =>
    rw [putSpaces]
    exact ih
  | case5 σ rest ih | case6 σ rest ih =>
    rw [putSpaces, hspace]
    exact ih
  | case7 σ rest hne ih | case8 σ rest hne ih =>
    rw [putSpaces, hspace]
    · exact ih
    · exact hne

/-- An item is put the same when its line is asked for, which is told. -/
theorem put_asks : ({ σ with asks := true } : Sheet).put line a =
    { σ.put line a with asked := (σ.put line a).outLine } := by
  have h := putSpaces_asks σ σ.waiting true
  unfold put release
  simp only [h]
  rfl

/-- Two items without white space between them are one. -/
@[simp]
theorem put_put : (σ.put line a).put line b = σ.put line (a ++ b) := by
  simp [put, release, putSpaces]

/-- Two items with a blank between them are one. -/
@[simp]
theorem put_blank_put :
    ((σ.put line a).hold .blank).put line b = σ.put line (a ++ .char ' ' :: b) := by
  simp [put, hold, release, putSpaces, putSpace, Page.isBreak]

/-- Two items with the end of a cell between them are one. -/
@[simp]
theorem put_cell_put :
    ((σ.put line a).hold .cell).put line b = σ.put line (a ++ .char '\x0b' :: b) := by
  simp [put, hold, release, putSpaces, putSpace, Page.isBreak]

/-- An indentation that ends at once is none. -/
@[simp]
theorem put_indented_put : (((σ.put line a).hold .indent).hold .unindent).put line b =
    σ.put line (a ++ b) := by
  simp [put, hold, release, putSpaces]

/-- A sheet right after an item. -/
def stopped (indent : Nat) (ink : List Ink) (line outLine asked : Nat) : Sheet :=
  { ink, waiting := [], indent, line, lastLine := line, outLine, begun := true, asks := false,
    asked }

variable (indent outLine asked : Nat) (ink : List Ink)

/-- An indentation as ink. -/
def tabs (indent : Nat) : List Ink := List.replicate indent (.char '\t')

/-- An item is put behind another. -/
@[simp]
theorem stopped_put :
    (stopped indent ink line outLine asked).put line' a =
      stopped indent (ink ++ a) line' outLine asked := by
  simp [stopped, put, release, putSpaces]

/-- An item is put behind another with a blank between them. -/
@[simp]
theorem stopped_blank_put :
    ((stopped indent ink line outLine asked).hold .blank).put line' a =
      stopped indent (ink ++ .char ' ' :: a) line' outLine asked := by
  simp [stopped, put, hold, release, putSpaces, putSpace, Page.isBreak]

/-- An item is put on the next line. -/
@[simp]
theorem stopped_newline_put :
    ((stopped indent ink line outLine asked).hold .newline).put line' a =
      stopped indent (ink ++ .char '\n' :: (tabs indent ++ a)) line' (outLine + 1) asked := by
  simp [stopped, put, hold, release, putSpaces, putSpace, Page.isBreak, tabs]

/-- An item is put after an empty line. -/
@[simp]
theorem stopped_newline_newline_put :
    (((stopped indent ink line outLine asked).hold .newline).hold .newline).put line' a =
      stopped indent (ink ++ .char '\n' :: .char '\n' :: (tabs indent ++ a)) line' (outLine + 2)
        asked := by
  simp [stopped, put, hold, release, putSpaces, putSpace, Page.isBreak, tabs]

/-- An item is put after an empty line and the end of a section. -/
@[simp]
theorem stopped_newSection_newline_put :
    (((stopped indent ink line outLine asked).hold .newSection).hold .newline).put line' a =
      stopped indent (ink ++ .char '\x0c' :: .char '\n' :: (tabs indent ++ a)) line' (outLine + 2)
        asked := by
  simp [stopped, put, hold, release, putSpaces, putSpace, Page.isBreak, tabs]

/-- An item is put on a line that is indented more. -/
@[simp]
theorem stopped_indent_newSection_put :
    (((stopped indent ink line outLine asked).hold .indent).hold .newSection).put line' a =
      stopped (indent + 1) (ink ++ .char '\x0c' :: (tabs (indent + 1) ++ a)) line' (outLine + 1)
        asked := by
  simp [stopped, put, hold, release, putSpaces, putSpace, Page.isBreak, tabs]

/-- An item is put on a line that is indented less. -/
@[simp]
theorem stopped_unindent_newSection_put :
    (((stopped (indent + 1) ink line outLine asked).hold .unindent).hold .newSection).put line' a =
      stopped indent (ink ++ .char '\x0c' :: (tabs indent ++ a)) line' (outLine + 1) asked := by
  simp [stopped, put, hold, release, putSpaces, putSpace, Page.isBreak, tabs]

/-- An item is put on a line that is indented less, in the same section. -/
@[simp]
theorem stopped_unindent_newline_put :
    (((stopped (indent + 1) ink line outLine asked).hold .unindent).hold .newline).put line' a =
      stopped indent (ink ++ .char '\n' :: (tabs indent ++ a)) line' (outLine + 1) asked := by
  simp [stopped, put, hold, release, putSpaces, putSpace, Page.isBreak, tabs]

/-- An item is put on the next line, with an indentation before it that ends at once. -/
@[simp]
theorem stopped_empty_put :
    ((((stopped indent ink line outLine asked).hold .indent).hold .unindent).hold .newSection).put
        line' a =
      stopped indent (ink ++ .char '\x0c' :: (tabs indent ++ a)) line' (outLine + 1) asked := by
  simp [stopped, put, hold, release, putSpaces, putSpace, Page.isBreak, tabs]

end Sheet

/-! ## Acts of writing -/

/-- A position is on a line. -/
structure LineTable.IsOn (t : LineTable) (line pos : Nat) : Prop where
  /-- There is such a line. -/
  isLine : 0 < line
  /-- There is such a position. -/
  isPosition : 0 < pos
  /-- The position is on the line. -/
  line_eq : t.line pos = line

/-- A text stands on its line. -/
theorem LineTable.Has.isOn {t : LineTable} {line pos : Nat} {text : String}
    (h : t.Has line text pos) : t.IsOn line pos := ⟨h.isLine, h.isPosition, h.start⟩

/-- No comment stands before the end of a line. -/
def QuietOn (t : LineTable) (cs : List WaitingGroup) (line : Nat) : Prop :=
  ∀ pos, t.IsOn line pos → Quiet cs (t.place pos)

/-- One act after another, which depends on what the first one gives. -/
theorem Leads.bind {t : LineTable} {cs cs' cs'' : List WaitingGroup} {α β : Type}
    {σ σ₁ σ₂ : Sheet} {x : Writing α} {f : α → Writing β} {a : α} {b : β}
    (hx : Leads t cs cs' x σ a σ₁) (hf : Leads t cs' cs'' (f a) σ₁ b σ₂) :
    Leads t cs cs'' (x >>= f) σ b σ₂ := by
  intro p hp
  obtain ⟨p₁, hrun, hp₁⟩ := hx p hp
  obtain ⟨p₂, hrun', hp₂⟩ := hf p₁ hp₁
  refine ⟨p₂, ?_, hp₂⟩
  rw [StateT.run_bind, hrun]
  exact hrun'

/-- One act after another, which does not depend on what the first one gives. -/
theorem Leads.seq {t : LineTable} {cs cs' cs'' : List WaitingGroup} {α β : Type}
    {σ σ₁ σ₂ : Sheet} {x : Writing α} {y : Writing β} {a : α} {b : β}
    (hx : Leads t cs cs' x σ a σ₁) (hy : Leads t cs' cs'' y σ₁ b σ₂) :
    Leads t cs cs'' (x >>= fun _ => y) σ b σ₂ := bind hx hy

/-- What is written after a look at the page. -/
theorem Leads.get {t : LineTable} {cs cs' : List WaitingGroup} {β : Type} {σ σ' : Sheet}
    {f : Page → Writing β} {b : β} (h : ∀ p : Page, p.Shows t cs σ → Leads t cs cs' (f p) σ b σ') :
    Leads t cs cs' (MonadState.get >>= f) σ b σ' := fun p hp => h p hp p hp

/-- A page goes to a position on a line, where the next item is put. -/
theorem Leads.goTo_bind {t : LineTable} {cs cs' : List WaitingGroup} {α : Type} {σ σ' : Sheet}
    {line pos : Nat} {f : Unit → Writing α} {a : α} (hpos : t.IsOn line pos)
    (h : ∀ p : Page, p.Shows t cs (σ.goTo line) → p.place = t.place pos →
      ∃ p', (f ()).run p = (a, p') ∧ p'.Shows t cs' σ') :
    Leads t cs cs' (Writing.goTo pos >>= f) σ a σ' := by
  intro p hp
  have hne : pos ≠ 0 := Nat.ne_of_gt hpos.isPosition
  have hgo : (Writing.goTo pos).run p = ((), { p with place := t.place pos }) := by
    change ((), if pos = 0 then p else { p with place := p.table.place pos }) = _
    rw [if_neg hne, hp.table]
  rw [StateT.run_bind, hgo]
  exact h { p with place := t.place pos }
    { hp with line := hpos.line_eq, isValid := Nat.lt_of_lt_of_eq hpos.isLine hpos.line_eq.symm } rfl

namespace Draws

variable {t : LineTable} {cs : List WaitingGroup} {α β : Type} {σ σ₁ σ₂ : Sheet} {line pos : Nat}
  {s : String}

theorem pure (a : α) : Draws t cs (Pure.pure a) σ a σ := fun p hp => ⟨p, rfl, hp⟩

/-- One act after another, which depends on what the first one gives. -/
theorem bind {x : Writing α} {f : α → Writing β} {a : α} {b : β} (hx : Draws t cs x σ a σ₁)
    (hf : Draws t cs (f a) σ₁ b σ₂) : Draws t cs (x >>= f) σ b σ₂ := Leads.bind hx hf

/-- One act after another, which does not depend on what the first one gives. -/
theorem seq {x : Writing α} {y : Writing β} {a : α} {b : β} (hx : Draws t cs x σ a σ₁)
    (hy : Draws t cs y σ₁ b σ₂) : Draws t cs (x >>= fun _ => y) σ b σ₂ :=
  bind hx hy

/-- What is written after two acts that belong together. -/
theorem pair {γ : Type} {x : Writing γ} {y : Writing α} {z : Writing β} {a : α} {b : β}
    (hxy : Draws t cs (x >>= fun _ => y) σ a σ₁) (hz : Draws t cs z σ₁ b σ₂) :
    Draws t cs (x >>= fun _ => y >>= fun _ => z) σ b σ₂ := by
  rw [← bind_assoc]
  exact hxy.seq hz

/-- What is written after a look at the page. -/
theorem get {f : Page → Writing β} {b : β}
    (h : ∀ p : Page, p.Shows t cs σ → Draws t cs (f p) σ b σ₂) :
    Draws t cs (MonadState.get >>= f) σ b σ₂ := Leads.get h

/-- The line of a position is looked up. -/
theorem lineOf (h : t.line pos = line) : Draws t cs (Writing.lineOf pos) σ line σ :=
  get fun p hp => by
    rw [hp.table, h]
    exact pure line

/-- White space is held back. -/
theorem space {s : Space} (h : s = .none ∨ σ.waiting.length < Page.waitingLimit) :
    Draws t cs (Writing.space s) σ () (σ.hold s) := by
  intro p hp
  refine ⟨p.hold s, rfl, ?_⟩
  by_cases hs : s = .none
  · subst hs
    have hnone : p.hold .none = p.noteOpened := by simp [Page.hold]
    rw [hnone, Sheet.hold, if_pos rfl]
    exact hp.noteOpened
  · exact hp.hold hs (h.resolve_left hs)

/-- White space is held back when little of it is. -/
theorem hold {s : Space} (h : decide (σ.waiting.length < Page.waitingLimit) = true) :
    Draws t cs (Writing.space s) σ () (σ.hold s) := space (.inr (of_decide_eq_true h))

/-- A page is changed in what does not matter. -/
theorem alter {f : Page → Page} (h : ∀ p : Page, p.Shows t cs σ → (f p).Shows t cs σ) :
    Draws t cs (modify f) σ () σ := fun p hp => ⟨f p, rfl, h p hp⟩

/-- The rules for comments are switched. -/
theorem toggle (blank line : Bool) : Draws t cs (Writing.toggle blank line) σ () σ :=
  alter fun _ hp => { hp.noteOpened with }

/-- A blank is held back after an item. -/
theorem blank {a : List Ink} :
    Draws t cs (Writing.space .blank) (σ.put line a) () ((σ.put line a).hold .blank) :=
  space (.inr (by simp [Page.waitingLimit]))

/-- The line of the first item is asked for. -/
theorem askingLine {act : Writing Unit} (h : Draws t cs act { σ with asks := true } () σ₁) :
    Draws t cs (Writing.askingLine act) σ σ₁.asked { σ₁ with asked := σ.asked } := by
  intro p hp
  obtain ⟨q, hrun, hq⟩ := h { p with asksLine := true } { hp with asks := rfl }
  refine ⟨{ q with askedLine := p.askedLine }, ?_, { hq with asked := hp.asked }⟩
  rw [← hq.asked]
  change (do
    act
    let line := (← MonadState.get).askedLine
    modify fun p' : Page => { p' with askedLine := p.askedLine }
    return line : Writing Nat).run { p with asksLine := true } = _
  rw [StateT.run_bind, hrun]
  rfl

/-- The line is broken once before the next one. -/
theorem breakTo_one {least : Nat} {newSection : Bool} (hline : line = σ.line + 1)
    (hleast : least ≤ 1) (hlength : decide (σ.waiting.length < Page.waitingLimit) = true) :
    Draws t cs (Writing.breakTo line least .none newSection) σ (if newSection then 2 else 1)
      (σ.hold (if newSection then .newSection else .newline)) := by
  refine get fun p hp => ?_
  have hn : max (min (line - p.place.line) Page.maxBreaks) least = 1 := by
    rw [hp.line, hline, Page.maxBreaks]
    omega
  dsimp only
  rw [hn]
  have hnone : Draws t cs (Writing.space .none) σ () σ := space (.inl rfl)
  have hnext : ∀ s, Draws t cs (Writing.space s) σ () (σ.hold s) := fun s => hold hlength
  cases newSection with
  | false => exact hnone.bind ((hnext _).bind (pure _))
  | true => exact hnone.bind ((hnext _).bind (pure _))

/-- The line is broken twice, so that an empty line comes before the next one. -/
theorem breakTo_two {least : Nat} {newSection : Bool} (hline : σ.line + 2 ≤ line)
    (hleast : least ≤ 2) (hlength : decide (σ.waiting.length + 1 < Page.waitingLimit) = true) :
    Draws t cs (Writing.breakTo line least .none newSection) σ (if newSection then 3 else 2)
      ((σ.hold (if newSection then .newSection else .newline)).hold .newline) := by
  refine get fun p hp => ?_
  have hn : max (min (line - p.place.line) Page.maxBreaks) least = 2 := by
    rw [hp.line, Page.maxBreaks]
    omega
  dsimp only
  rw [hn]
  have hnone : Draws t cs (Writing.space .none) σ () σ := space (.inl rfl)
  rw [decide_eq_true_eq] at hlength
  have hfirst : ∀ s, Draws t cs (Writing.space s) σ () (σ.hold s) :=
    fun s => space (.inr (Nat.lt_of_succ_lt hlength))
  have hsecond : ∀ s, s ≠ .none → Draws t cs (Writing.space .newline) (σ.hold s) ()
      ((σ.hold s).hold .newline) := by
    intro s hs
    refine space (.inr ?_)
    rw [Sheet.hold, if_neg hs]
    simpa using hlength
  cases newSection with
  | false =>
    have hboth : Draws t cs (do
        Writing.space .none
        Writing.space .newline
        Writing.space .newline
        return 2) σ 2 ((σ.hold .newline).hold .newline) :=
      hnone.bind ((hfirst _).bind ((hsecond .newline (by simp)).bind (pure _)))
    simpa [List.range_succ] using hboth
  | true => exact hnone.bind ((hfirst _).bind ((hsecond .newSection (by simp)).bind (pure _)))

/-! ## Items at their places -/

/-- A page goes to a position on a line. -/
theorem goTo (hpos : t.IsOn line pos) : Draws t cs (Writing.goTo pos) σ () (σ.goTo line) := by
  have h : Draws t cs (Writing.goTo pos >>= fun _ => Pure.pure ()) σ () (σ.goTo line) :=
    Leads.goTo_bind hpos fun p hp _ => ⟨p, rfl, hp⟩
  rwa [bind_pure_unit] at h

/-- A sign is written at a position on a line. -/
theorem signAt (hpos : t.IsOn line pos) (hquiet : QuietOn t cs line) (hne : s ≠ "")
    (hunbroken : ∀ c ∈ s.toList, Page.isBreak c = false)
    (hs : Page.isLoose s = true ∨ s = "&" ∧ σ.waiting ≠ []) :
    Draws t cs (Writing.signAt pos s) σ () (σ.put line (inkOf s)) := by
  refine Leads.goTo_bind hpos fun p hp hplace => ⟨p.putSign s, rfl, ?_⟩
  have hput := hp.putSign (hplace ▸ hquiet pos hpos) hne hunbroken hs
  rwa [Sheet.put_goTo] at hput

/-- A name is written at its position. -/
theorem wordAt (hpos : t.Has line s pos) (hquiet : QuietOn t cs line) :
    Draws t cs (Writing.goTo pos >>= fun _ => Writing.word s) σ () (σ.put line (inkOf s)) := by
  refine Leads.goTo_bind hpos.isOn fun p hp hplace => ⟨p.noteOpened.putItem .name s false true, rfl, ?_⟩
  have hnoted : p.noteOpened.place = t.place pos := by rw [Page.noteOpened_eq, ← hplace]
  have hput := hp.noteOpened.putItem (hnoted ▸ hquiet pos hpos.isOn) .name (by simp)
    hpos.ne_empty hpos.unbroken false true
  rwa [Sheet.put_goTo] at hput

/-- A text in quotes is written at its position. -/
theorem textAt (hpos : t.IsOn line pos) (hquiet : QuietOn t cs line) (hne : s ≠ "")
    (hunbroken : ∀ c ∈ s.toList, Page.isBreak c = false) :
    Draws t cs (Writing.goTo pos >>= fun _ => Writing.literal .text s) σ ()
      (σ.put line (fencedInk s)) := by
  refine Leads.goTo_bind hpos fun p hp hplace => ⟨p.noteOpened.putItem .literal s true true, rfl, ?_⟩
  have hnoted : p.noteOpened.place = t.place pos := by rw [Page.noteOpened_eq, ← hplace]
  have hput := hp.noteOpened.putItem (hnoted ▸ hquiet pos hpos) .literal (by simp)
    hne hunbroken true true
  rwa [Sheet.put_goTo] at hput

/-- A sign is written where the page is, when no comment is left. -/
theorem sign (hne : s ≠ "") (hunbroken : ∀ c ∈ s.toList, Page.isBreak c = false)
    (hs : Page.isLoose s = true) : Draws t [] (Writing.sign s) σ () (σ.put σ.line (inkOf s)) :=
  fun p hp => ⟨p.putSign s, rfl, hp.putSign (by simp [Quiet]) hne hunbroken (.inl hs)⟩

end Draws

end NodeFamily.Layout
