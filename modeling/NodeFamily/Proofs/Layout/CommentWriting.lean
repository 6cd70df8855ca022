import NodeFamily.Proofs.Layout.Sheet
import Mathlib.Tactic.MkIffOfInductiveProp

/-!
# Writing comments

A comment waits on the page until an item after it is written. Documentation goes right above its
declaration (`leads_documented`), and the comment at the front goes before the package clause
(`exists_draws_front`).
-/

namespace NodeFamily.Layout

open Writing

variable {t : LineTable} {cs : List WaitingGroup} {line : Nat} {σ : Sheet} {p : Page}

/-! ## Single comments -/

/-- A line comment that is written as it is: it ends in no blank and is meant for no tool. -/
@[mk_iff]
structure IsProse (text : String) : Prop where
  isLine : "//".toList.isPrefixOf text.toList = true
  trimmed : Text.dropEndWhile Text.isBlank text.toList = text.toList
  noLine : "//line ".toList.isPrefixOf text.toList = false
  noConstraint : (Constraint.newForm? text.toList).isSome = false ∧
    (Constraint.oldForm? text.toList).isSome = false

instance : DecidablePred IsProse := fun _ => decidable_of_iff _ (isProse_iff _).symm

/-- Text changes neither the indentation nor the white space held back, and it ends no statement. -/
theorem Page.putText_keeps (p : Page) (here : Place) (text : List Char) (fenced : Bool) :
    (p.putText here text fenced).indent = p.indent ∧
      (p.putText here text fenced).waiting = p.waiting ∧
        (p.putText here text fenced).ready = p.ready := by
  unfold putText putIndent
  dsimp only
  split <;> exact ⟨rfl, rfl, rfl⟩

/-- A comment that is written as it is goes where it stands in the source. -/
theorem Page.putComment_of_isProse {c : Comment} (h : IsProse c.text) (p : Page) :
    p.putComment c = p.putText (p.table.place c.pos) c.text.toList true := by
  have hline : c.isLine = true := h.isLine
  unfold Page.putComment
  simp only [h.noLine, hline, h.trimmed, h.noConstraint, Bool.false_and, if_true, if_false,
    Bool.false_eq_true]
  rw [← (p.putText_keeps (p.table.place c.pos) c.text.toList true).1]

/-- Two line breaks are written one after the other. -/
theorem Page.putSpace_two (h : p.endsCells = false) {c : Char} (hc : isBreak c = true) :
    p.putSpace c 2 = (p.putSpace c 1).putSpace c 1 := by
  simp [putSpace, h, hc, List.replicate]

/-- Nothing is written when no white space is released. -/
theorem Page.release_zero (p : Page) : p.release 0 = p := by
  rw [release, List.take_zero, List.drop_zero, putSpaces]

/-- Before the first comment, on a later line than the item before it, the line is broken twice when
two line breaks are held back, of which one is taken back. -/
theorem Page.Holds.putBeforeComment_none (h : p.Holds t cs σ)
    (hwaiting : σ.waiting = [.newline, .newline]) (hink : σ.ink ≠ []) (hindent : σ.indent = 0)
    (here : Place) (hline : 0 < σ.lastLine) (hhere : σ.lastLine < here.line) (next : Place)
    (mark : Mark) :
    (p.putBeforeComment here next none mark).Holds t cs
      (({ σ with waiting := [.none, .newline] } : Sheet).putSpace '\x0c' |>.putSpace '\x0c') := by
  have hsize : (p.size == 0) = false := by
    rw [h.size]
    simpa using hink
  have hzero : (p.indent == 0) = true := by rw [h.indent, hindent, beq_self_eq_true]
  have habove : (here.line == p.lastPlace.line) = false := by
    rw [h.lastLine, beq_eq_false_iff_ne]
    omega
  have hspaces : ∀ aligned, aboveComment aligned [.newline, .newline] =
      ([.none, .newline], some 0, true) := fun _ => by rw [aboveComment]
  have hvalid : (here.isValid && p.lastPlace.isValid) = true := by
    rw [Bool.and_eq_true]
    exact ⟨decide_eq_true (Nat.zero_lt_of_lt hhere), decide_eq_true (h.lastLine ▸ hline)⟩
  have hcount : min (here.line - p.lastPlace.line + 1) maxBreaks = 2 := by
    rw [h.lastLine, maxBreaks]
    omega
  have hpos : here.line - p.lastPlace.line + 1 > 0 := Nat.succ_pos _
  unfold Page.putBeforeComment
  simp only [hsize, habove, h.waiting, hwaiting, hspaces, Option.getD_some, Page.release_zero,
    hvalid, hzero, Bool.false_and, Bool.and_false, Bool.false_eq_true, if_false, if_true,
    Option.isNone_none, Bool.and_true, Option.any_none]
  have hnoted : Page.Holds t cs ({ σ with waiting := [.none, .newline] } : Sheet)
      { p with waiting := [.none, .newline] } := { h with waiting := rfl }
  rw [if_pos hpos, hcount, Page.putSpace_two hnoted.endsCells rfl]
  exact (hnoted.putSpace _).putSpace _

/-- Before a comment that follows one on its line in the source, the line is broken once. -/
theorem Page.Holds.putBeforeComment_some (h : p.Holds t cs σ)
    (hwaiting : σ.waiting = [.none, .newline]) (hink : σ.ink ≠ []) {here : Place}
    (hhere : here.line = σ.lastLine) {c : Comment} (hc : c.isLine = true) (next : Place)
    (mark : Mark) :
    p.putBeforeComment here next (some c) mark = p.putSpace '\x0c' 1 := by
  have hsize : (p.size == 0) = false := by
    rw [h.size]
    simpa using hink
  have hspaces : ∀ aligned, aboveComment aligned [.none, .newline] =
      ([.none, .newline], some 0, false) := fun _ => by simp [aboveComment]
  have hcount : (if (here.isValid && p.lastPlace.isValid) = true then
      here.line - p.lastPlace.line else 0) = 0 := by
    rw [h.lastLine, hhere, Nat.sub_self, ite_self]
  have hsame : ({ p with waiting := [.none, .newline] } : Page) = p := by
    rw [← hwaiting, ← h.waiting]
  unfold Page.putBeforeComment
  simp only [hsize, hc, h.waiting, hwaiting, hspaces, Option.getD_some, Page.release_zero,
    hcount, hsame, Option.all_some, Option.any_some, Bool.not_true, Bool.and_false,
    Bool.false_eq_true, if_false, Bool.and_true]
  rfl

/-! ## Documentation -/

/-- A sheet right after a comment above an item. -/
def Sheet.documenting (ink : List Ink) (line outLine asked : Nat) : Sheet :=
  { ink, waiting := [.none, .newline], indent := 0, line, lastLine := line, outLine, begun := true,
    asks := false, asked }

/-- Comments after the first one are written on lines of their own. -/
theorem Page.Holds.putGroup_some {ink : List Ink} {out asked pos : Nat} {texts : List String}
    (h : p.Holds t cs (.documenting ink line out asked)) (hink : ink ≠ []) (hline : 0 < line)
    (hpos : t.line pos = line) (htexts : ∀ s ∈ texts, IsProse s)
    (hunbroken : ∀ s ∈ texts, ∀ c ∈ s.toList, isBreak c = false) {c : Comment}
    (hc : c.isLine = true) (next : Place) (mark : Mark) :
    (p.putGroup next mark (some c) (texts.map fun s => ⟨pos, s⟩)).1.Holds t cs
      (.documenting (ink ++ texts.flatMap fun s => .char '\x0c' :: fencedInk s) line
        (out + texts.length) asked) := by
  -- Each comment is written after a form feed and leaves a sheet of the same form.
  induction texts generalizing p ink out c with
  | nil => simpa [putGroup] using h
  | cons s texts ih =>
    rw [List.forall_mem_cons] at htexts hunbroken
    have hhere : (p.table.place pos).line = line := by rw [h.table]; exact hpos
    have hspace := h.putSpace '\x0c'
    have htable : (p.putSpace '\x0c' 1).table = p.table := hspace.table.trans h.table.symm
    have hne : s ≠ "" := by
      rintro rfl
      exact absurd htexts.1.isLine (by decide)
    obtain ⟨htext, -⟩ := hspace.putText (p.table.place pos) (hhere ▸ hline) hne hunbroken.1 true
    rw [List.map_cons, putGroup]
    dsimp only
    rw [h.putBeforeComment_some rfl hink hhere hc, putComment_of_isProse htexts.1, htable]
    have hsheet : { (Sheet.documenting ink line out asked).putSpace '\x0c' with
        ink := ((Sheet.documenting ink line out asked).putSpace '\x0c').ink ++
          ((if ((Sheet.documenting ink line out asked).putSpace '\x0c').begun then []
            else List.replicate ((Sheet.documenting ink line out asked).putSpace '\x0c').indent
              (.char '\t')) ++ if true then fencedInk s else inkOf s)
        line := (p.table.place pos).line, lastLine := (p.table.place pos).line, begun := true } =
          Sheet.documenting (ink ++ .char '\x0c' :: fencedInk s) line (out + 1) asked := by
      simp [Sheet.documenting, Sheet.putSpace, isBreak, hhere]
    rw [hsheet] at htext
    have hrest := ih htext (by simp) htexts.2 hunbroken.2 (c := ⟨pos, s⟩) htexts.1.isLine
    simpa [Nat.add_assoc, Nat.add_comm 1] using hrest

/-- Comments above an item are written after an empty line. -/
theorem Page.Holds.putGroup_none {ink : List Ink} {before out asked pos reached : Nat}
    {texts : List String} (h : p.Holds t cs
      ((((Sheet.stopped 0 ink before out asked).hold .newline).hold .newline).goTo reached))
    (hink : ink ≠ []) (hbefore : 0 < before) (hline : before < line) (hpos : t.line pos = line)
    (htexts : ∀ s ∈ texts, IsProse s)
    (hunbroken : ∀ s ∈ texts, ∀ c ∈ s.toList, isBreak c = false) (hne : texts ≠ []) (next : Place)
    (mark : Mark) :
    (p.putGroup next mark none (texts.map fun s => ⟨pos, s⟩)).1.Holds t cs
      (.documenting (ink ++ .char '\x0c' :: texts.flatMap fun s => .char '\x0c' :: fencedInk s) line
        (out + 1 + texts.length) asked) := by
  obtain ⟨s, texts, rfl⟩ := List.exists_cons_of_ne_nil hne
  rw [List.forall_mem_cons] at htexts hunbroken
  have hhere : (p.table.place pos).line = line := by rw [h.table]; exact hpos
  have hspace := h.putBeforeComment_none rfl hink rfl (p.table.place pos) hbefore
    (hhere ▸ hline) next mark
  have htable := hspace.table.trans h.table.symm
  have hs : s ≠ "" := by
    rintro rfl
    exact absurd htexts.1.isLine (by decide)
  obtain ⟨htext, -⟩ := hspace.putText (p.table.place pos)
    (hhere ▸ Nat.zero_lt_of_lt hline) hs hunbroken.1 true
  rw [List.map_cons, putGroup]
  dsimp only
  rw [putComment_of_isProse htexts.1, htable]
  have hsheet : ∀ σ', σ' = (({ (((Sheet.stopped 0 ink before out asked).hold .newline).hold
      .newline).goTo reached with waiting := [.none, .newline] } :
        Sheet).putSpace '\x0c').putSpace '\x0c' →
      { σ' with
        ink := σ'.ink ++ ((if σ'.begun then [] else List.replicate σ'.indent (.char '\t')) ++
          if true then fencedInk s else inkOf s)
        line := (p.table.place pos).line, lastLine := (p.table.place pos).line, begun := true } =
          Sheet.documenting (ink ++ .char '\x0c' :: .char '\x0c' :: fencedInk s) line (out + 2)
            asked := by
    rintro _ rfl
    simp [Sheet.documenting, Sheet.putSpace, Sheet.hold, Sheet.stopped, Sheet.goTo,
      isBreak, hhere]
  rw [hsheet _ rfl] at htext
  have hrest := htext.putGroup_some (by simp) (Nat.zero_lt_of_lt hline) hpos htexts.2 hunbroken.2
    (c := ⟨pos, s⟩) htexts.1.isLine next mark
  have hout : out + 2 + texts.length = out + 1 + (s :: texts).length := by
    rw [List.length_cons]
    omega
  rw [hout] at hrest
  simpa using hrest

/-- Texts of comments that the layout leaves as they are above a declaration. -/
@[mk_iff]
structure IsDocumentation (texts : List String) : Prop where
  ne_nil : texts ≠ []
  prose : ∀ s ∈ texts, IsProse s
  unbroken : (texts.any fun s => s.toList.any Page.isBreak) = false
  /-- No line is meant for a tool. -/
  words : (texts.map fun s => s.toList.drop 2).any isDirective = false
  /-- The lines are laid out as they are. -/
  laid : (DocText.layOut (texts.map fun s =>
    let line := s.toList.drop 2
    if line.head? == some ' ' then line.drop 1 else line)).map docLine = texts

instance : DecidablePred IsDocumentation := fun _ => decidable_of_iff _ (isDocumentation_iff _).symm

/-- Comments with the texts of documentation are laid out as they are, all at the place of the first
one. -/
theorem IsDocumentation.layOutGroup {texts : List String} (h : IsDocumentation texts)
    {group : List Comment} (hgroup : group.map Comment.text = texts) {c : Comment}
    (hc : group.head? = some c) : layOutGroup group = texts.map fun s => ⟨c.pos, s⟩ := by
  obtain ⟨c', rest, rfl⟩ := List.exists_cons_of_ne_nil (l := group) (by rintro rfl; simp at hc)
  obtain rfl : c' = c := by simpa using hc
  have hlines : ∀ d ∈ c' :: rest, d.isLine = true := by
    intro d hd
    exact (h.prose d.text (hgroup ▸ List.mem_map_of_mem hd)).isLine
  rw [List.forall_mem_cons] at hlines
  have htexts : (c' :: rest).map (fun d => d.text.toList.drop 2) =
      texts.map fun s => s.toList.drop 2 := by
    rw [← hgroup, List.map_map]
    rfl
  unfold Layout.layOutGroup
  dsimp only
  rw [if_pos hlines.1, if_pos (List.all_eq_true.2 hlines.2)]
  unfold layOutLines
  have hpartition : (texts.map fun s => s.toList.drop 2).partition isDirective =
      ([], texts.map fun s => s.toList.drop 2) := by
    have hwords := List.any_eq_false.1 h.words
    rw [List.partition_eq_filter_filter, List.filter_eq_nil_iff.2 hwords,
      List.filter_eq_self.2 fun l hl => by simpa using hwords l hl]
  have hempty : (texts.map fun s => s.toList.drop 2).isEmpty = false := by
    simpa using h.ne_nil
  have hlaid := h.laid
  dsimp only at hlaid ⊢
  rw [htexts, hpartition]
  dsimp only
  rw [hempty, if_neg Bool.false_ne_true, List.map_map]
  simp only [Function.comp_def]
  split
  · next hnil =>
    rw [hnil] at hlaid
    exact absurd hlaid.symm h.ne_nil
  · rw [hlaid]
    simp

/-- A group of comments from a line on stands right above an item. -/
structure WaitingGroup.IsAbove (t : LineTable) (line start : Nat) (texts : List String)
    (g : WaitingGroup) : Prop where
  text_eq : g.comments.map Comment.text = texts
  /-- The first comment begins the line. -/
  first : ∀ c ∈ g.comments.head?, t.line c.pos = line ∧ (t.place c.pos).column = 1
  /-- The last comment ends as many lines on as there are others. -/
  stop : t.line (Page.groupStop g.comments) + 1 = line + texts.length
  /-- The item begins the next line. -/
  next : t.place (Page.groupStop g.comments + 1) = t.place start
  offset : g.offset < (t.place start).offset

/-- A group with texts has a first comment. -/
theorem WaitingGroup.IsAbove.exists_head? {start : Nat} {texts : List String} {g : WaitingGroup}
    (hg : g.IsAbove t line start texts) (hne : texts ≠ []) : ∃ c, g.comments.head? = some c := by
  obtain ⟨s, rest, htexts⟩ := List.exists_cons_of_ne_nil hne
  obtain ⟨c, comments, hcs, -, -⟩ := List.map_eq_cons_iff.1 (hg.text_eq.trans htexts)
  exact ⟨c, by rw [hcs]; rfl⟩

/-- The ink of documentation after an item. -/
def docInk (texts : List String) : List Ink :=
  .char '\x0c' :: (texts.flatMap fun s => .char '\x0c' :: fencedInk s) ++ [.char '\n']

/-- A sheet after documentation. -/
def Sheet.documented (ink : List Ink) (line outLine asked : Nat) : Sheet :=
  { ink, waiting := [], indent := 0, line, lastLine := line - 1, outLine, begun := false,
    asks := false, asked }

/-- After documentation the line ends, and the next one begins. -/
theorem Sheet.release_documenting (ink : List Ink) (line out asked count : Nat) (hline : 0 < line) :
    ({ Sheet.documenting ink line (out + 1 + count) asked with
      line := line + count - 1, lastLine := line + count - 1 } : Sheet).release =
        .documented (ink ++ [.char '\n']) (line + count) (out + count + 2) asked := by
  have hlines : line + count - 1 + 1 = line + count := by omega
  have hout : out + 1 + count + 1 = out + count + 2 := by omega
  simp [release, documenting, putSpaces, putSpace, Page.isBreak, hlines, hout, documented]

/-- The group of comments above an item is written alone, and the page is at its end. -/
theorem Page.Holds.putGroups_documented {g : WaitingGroup} {ink : List Ink}
    {before out asked start reached : Nat} {texts : List String} (hdoc : IsDocumentation texts)
    (hg : g.IsAbove t line start texts) (h : p.Holds t (g :: cs)
      ((((Sheet.stopped 0 ink before out asked).hold .newline).hold .newline).goTo reached))
    (hready : p.ready = false) (hlast : p.last ≠ .sign "import") (hink : ink ≠ [])
    (hbefore : 0 < before) (hline : before < line) (hquiet : Quiet cs (t.place start))
    (mark : Mark) :
    ∃ r : Page, Page.putGroups (t.place start) mark (g :: cs) none p =
        (r, g.comments.getLast?, false) ∧
      r.Holds t cs { Sheet.documenting (ink ++ .char '\x0c' ::
        texts.flatMap fun s => .char '\x0c' :: fencedInk s) line (out + 1 + texts.length) asked with
        line := line + texts.length - 1, lastLine := line + texts.length - 1 } := by
  obtain ⟨c, hhead⟩ := hg.exists_head? hdoc.ne_nil
  obtain ⟨hpos, hcolumn⟩ := hg.first c hhead
  have hcomment : p.hasCommentBefore (t.place start) = true := by
    simp [Page.hasCommentBefore, h.comments, hg.offset, hready]
  have hdocumentation : p.isDocumentation (t.place start) g.comments = true := by
    simp [isDocumentation, hhead, h.table, hcolumn, hg.next, hlast]
  have hlaid := hdoc.layOutGroup hg.text_eq hhead
  have hgroup := h.putGroup_none hink hbefore hline hpos hdoc.prose
    (by simpa using hdoc.unbroken) hdoc.ne_nil
    (t.place start) mark
  -- The page goes to the end of the comments, and no other comment comes before the item.
  let q := (p.putGroup (t.place start) mark none (texts.map fun s => ⟨c.pos, s⟩)).1
  let r : Page := { q with
    place := q.table.place (groupStop g.comments)
    lastPlace := q.table.place (groupStop g.comments)
    comments := cs }
  have hstop := hg.stop
  have hr : r.Holds t cs { Sheet.documenting (ink ++ .char '\x0c' ::
      texts.flatMap fun s => .char '\x0c' :: fencedInk s) line (out + 1 + texts.length) asked with
      line := line + texts.length - 1, lastLine := line + texts.length - 1 } := by
    have hline : (q.table.place (groupStop g.comments)).line = line + texts.length - 1 := by
      rw [hgroup.table, ← hstop]
      rfl
    exact { hgroup with comments := rfl, line := hline, lastLine := hline }
  refine ⟨r, ?_, hr⟩
  have hend : Page.putGroups (t.place start) mark cs g.comments.getLast? r =
      (r, g.comments.getLast?, false) := by
    cases cs with
    | nil => rfl
    | cons g' cs =>
      rw [putGroups, hr.hasCommentBefore hquiet]
      rfl
  obtain ⟨s, texts, rfl⟩ := List.exists_cons_of_ne_nil hdoc.ne_nil
  rw [putGroups, hcomment, hdocumentation, hlaid, if_neg (by simp), if_pos rfl, List.map_cons]
  dsimp only
  rw [← List.map_cons]
  exact hend

/-- Documentation is written before its item. -/
theorem Page.Holds.putComments_documented {g : WaitingGroup} {ink : List Ink}
    {before out asked start reached : Nat} {texts : List String} (hdoc : IsDocumentation texts)
    (hg : g.IsAbove t line start texts) (h : p.Holds t (g :: cs)
      ((((Sheet.stopped 0 ink before out asked).hold .newline).hold .newline).goTo reached))
    (hready : p.ready = false) (hlast : p.last ≠ .sign "import") (hink : ink ≠ [])
    (hbefore : 0 < before) (hline : before < line) (hquiet : Quiet cs (t.place start))
    (mark : Mark) :
    ∃ q : Page, p.putComments (t.place start) mark = (q, true, false) ∧
      q.Holds t cs (.documented (ink ++ docInk texts) (line + texts.length)
        (out + texts.length + 2) asked) := by
  obtain ⟨r, hgroups, hr⟩ := h.putGroups_documented hdoc hg hready hlast hink hbefore hline hquiet
    mark
  obtain ⟨c, hhead⟩ := hg.exists_head? hdoc.ne_nil
  obtain ⟨rest, hcs⟩ := List.head?_eq_some_iff.1 hhead
  obtain ⟨l, hl⟩ : ∃ l, g.comments.getLast? = some l := by
    rw [hcs]
    exact ⟨_, List.getLast?_cons⟩
  have hlineComment : l.isLine = true :=
    (hdoc.prose l.text (hg.text_eq ▸ List.mem_map_of_mem (List.mem_of_getLast? hl))).isLine
  have hafter : afterComment true [.none, .newline] = ([.none, .newline], false, false) := rfl
  have hwaiting : r.waiting = [.none, .newline] := hr.waiting
  refine ⟨r.releaseAll, ?_, ?_⟩
  · unfold putComments
    rw [h.comments, hgroups, hl]
    simp only [hlineComment, Bool.not_true, Bool.and_false, Bool.false_and, Bool.false_eq_true,
      if_false, Bool.or_true, Bool.true_or, putAfterComment, hwaiting, hafter]
    rw [← hwaiting]
  · have hreleased := hr.releaseAll
    rw [Sheet.release_documenting _ _ _ _ _ (Nat.lt_trans hbefore hline), List.append_assoc]
      at hreleased
    exact hreleased

/-- A sign with documentation above it is written after an empty line. -/
theorem leads_documented {g : WaitingGroup} {ink : List Ink} {before start : Nat} (out asked : Nat)
    {texts : List String} {s : String} (hdoc : IsDocumentation texts)
    (hg : g.IsAbove t line start texts) (hstart : t.Has (line + texts.length) s start)
    (hquiet : QuietOn t cs (line + texts.length)) (hs : s ≠ "import" ∧ s ≠ "/")
    (hink : ink ≠ []) (hbefore : 0 < before) (hline : before < line) :
    Leads t (g :: cs) cs (signAt start s)
      (((Sheet.stopped 0 ink before out asked).hold .newline).hold .newline) ()
      (.stopped 0 (ink ++ docInk texts ++ inkOf s) (line + texts.length) (out + texts.length + 2)
        asked) := by
  refine Leads.goTo_bind hstart.isOn fun p hp hplace => ⟨p.putSign s, rfl, ?_⟩
  obtain ⟨ready, hsign⟩ := hp.putSign_eq (s := s) (.inr (by simp [Sheet.goTo, Sheet.hold]))
  have hnoted : p.noteOpened.place = t.place start := by rw [Page.noteOpened_eq, ← hplace]
  have hready : p.noteOpened.ready = false := hp.noteOpened.ready (by
    rw [hp.noteOpened.waiting]
    rfl)
  have hmarked : Page.Holds t (g :: cs)
      ((((Sheet.stopped 0 ink before out asked).hold .newline).hold .newline).goTo
        (line + texts.length)) { p.noteOpened with last := .sign s } :=
    { hp.noteOpened with last := by simpa using hs.2 }
  obtain ⟨q, hq, hholds⟩ := hmarked.putComments_documented hdoc hg hready (by simpa using hs.1)
    hink hbefore hline (hquiet start hstart.isOn) (.sign s)
  have hcomment : ({ p.noteOpened with last := .sign s } : Page).hasCommentBefore
      (t.place start) = true := by
    simp [Page.hasCommentBefore, hp.noteOpened.comments, hg.offset, hready]
  have hflush : ({ p.noteOpened with last := .sign s } : Page).flush p.noteOpened.place (.sign s) =
      (q, true, false) := by
    rw [hnoted, Page.flush, if_pos hcomment, hq]
  have hline : (t.place start).line = line + texts.length := hstart.start
  have hnone : q.breaksLeft p.noteOpened.place true = 0 := by
    rw [Page.breaksLeft, hholds.line, hnoted, hline, Sheet.documented, Nat.sub_self]
    simp [Page.maxBreaks]
  rw [hsign]
  have hput := Page.Shows.putItem_flushed hflush (by rwa [hnone]) rfl hp.noteOpened.isValid
    hstart.ne_empty hstart.unbroken false ready
  rw [hnoted, hline] at hput
  have hsheet : (Sheet.documented (ink ++ docInk texts) (line + texts.length)
      (out + texts.length + 2) asked).put (line + texts.length)
        (if false then fencedInk s else inkOf s) =
      .stopped 0 (ink ++ docInk texts ++ inkOf s) (line + texts.length) (out + texts.length + 2)
        asked := by
    simp [Sheet.put, Sheet.release, Sheet.putSpaces, Sheet.documented, Sheet.stopped]
  rwa [hsheet] at hput

/-! ## The comment at the front -/

/-- A group of one comment at the start of the text, which is not right above an item. -/
structure WaitingGroup.IsFront (t : LineTable) (start : Nat) (text : String) (g : WaitingGroup) :
    Prop where
  prose : IsProse text
  comment : ∃ c, g.comments = [c] ∧ c.text = text ∧ t.place c.pos = ⟨0, 1, 1⟩
  apart : t.place (Page.groupStop g.comments + 1) ≠ t.place start
  offset : g.offset < (t.place start).offset

/-- What ends the comment at the front: two line breaks, or one when there are line breaks in it. -/
def frontEnd (text : String) : List Ink :=
  if text.toList.any Page.isBreak then [.char '\x0c'] else [.char '\n', .char '\n']

/-- The page before the package clause. -/
def frontPage (t : LineTable) (cs : List WaitingGroup) (place : Place) : Page :=
  { table := t, normalises := true, comments := cs, place }

/-- The comment at the front is all that is written before the package clause. -/
theorem flush_front {g : WaitingGroup} {start : Nat} {text : String} (hg : g.IsFront t start text)
    (hquiet : Quiet cs (t.place start)) (mark : Mark) :
    ({ frontPage t (g :: cs) (t.place start) with last := mark } : Page).flush (t.place start) mark =
      (({ ({ frontPage t (g :: cs) (t.place start) with last := mark } : Page).putText ⟨0, 1, 1⟩
        text.toList true with comments := cs } : Page).putSpace '\n' 1, true, false) := by
  obtain ⟨c, hc, rfl, hpos⟩ := hg.comment
  generalize hp : ({ frontPage t (g :: cs) (t.place start) with last := mark } : Page) = p
  have hcomment : p.hasCommentBefore (t.place start) = true := by
    subst hp
    simp [Page.hasCommentBefore, frontPage, hg.offset]
  have hdocumentation : p.isDocumentation (t.place start) g.comments = false := by
    subst hp
    simp [Page.isDocumentation, frontPage, hg.apart]
  have hbefore : ∀ here, p.putBeforeComment here (t.place start) none mark = p := by
    intro here
    subst hp
    rfl
  have hcomments : p.comments = g :: cs := by
    subst hp
    rfl
  have htable : p.table = t := by
    subst hp
    rfl
  have hheld : p.waiting = [] := by
    subst hp
    rfl
  let r : Page := { p.putText ⟨0, 1, 1⟩ c.text.toList true with comments := cs }
  have hwaiting : r.waiting = [] := (p.putText_keeps ⟨0, 1, 1⟩ c.text.toList true).2.1.trans hheld
  have hend : Page.putGroups (t.place start) mark cs (some c) r = (r, some c, false) := by
    cases cs with
    | nil => rfl
    | cons g' cs =>
      have hnone : r.hasCommentBefore (t.place start) = false := by
        have := hquiet g' rfl
        simp [Page.hasCommentBefore, r]
        omega
      rw [Page.putGroups, hnone]
      rfl
  have hgroups : Page.putGroups (t.place start) mark (g :: cs) none p = (r, some c, false) := by
    rw [Page.putGroups, hcomment, hdocumentation, hc, if_neg (by simp), if_neg (by simp),
      Page.putGroup, hbefore, Page.putComment_of_isProse hg.prose, htable, hpos]
    exact hend
  have hline : c.isLine = true := hg.prose.isLine
  have hreleased : r.releaseAll = r := by
    rw [Page.releaseAll, hwaiting]
    exact r.release_zero
  have hsame : ({ r with waiting := [] } : Page) = r := by rw [← hwaiting]
  rw [Page.flush, if_pos hcomment]
  unfold Page.putComments
  rw [hcomments, hgroups]
  simp only [hline, Bool.not_true, Bool.and_false, Bool.false_and, Bool.false_eq_true, if_false,
    Bool.or_true, Bool.true_or, Page.putAfterComment, hwaiting, Page.afterComment, hsame, hreleased,
    if_true]
  rfl

/-- The sheet after the comment at the front. -/
def Sheet.front (text : String) (line lastLine outLine : Nat) : Sheet :=
  { ink := fencedInk text ++ frontEnd text, waiting := [], indent := 0, line, lastLine, outLine,
    begun := false, asks := false, asked := 0 }

/-- The line ends after the comment at the front, and an empty line follows unless there are line
breaks in the comment. -/
theorem exists_holds_front (cs : List WaitingGroup) {g : WaitingGroup} {next : Place}
    {text : String} (hne : text ≠ "") (hnext : next.line = 3) (mark : Mark)
    (hmark : mark ≠ .integer ∧ mark ≠ .sign "/") {q : Page}
    (hq : q = ({ ({ frontPage t (g :: cs) next with last := mark } : Page).putText ⟨0, 1, 1⟩
      text.toList true with comments := cs } : Page).putSpace '\n' 1) :
    ∃ line lastLine out, Page.Holds t cs (.front text line lastLine out)
      (if q.breaksLeft next true > 0 then q.putSpace '\n' (q.breaksLeft next true) else q) := by
  have hfront : Page.Holds t (g :: cs)
      { ink := [], waiting := [], indent := 0, line := 3, lastLine := 0, outLine := 1,
        begun := false, asks := false, asked := 0 }
      { frontPage t (g :: cs) next with last := mark } :=
    ⟨rfl, rfl, rfl, rfl, rfl, rfl, hnext, rfl, rfl, Nat.one_pos, rfl, rfl, rfl, rfl, rfl, rfl,
      hmark⟩
  have hready : q.ready = false := by
    have hspace : ∀ (p : Page) c, (p.putSpace c 1).ready = p.ready := by
      intro p c
      unfold Page.putSpace
      dsimp only
      rw [apply_ite Page.ready, ite_self]
    rw [hq, hspace]
    exact (Page.putText_keeps _ ⟨0, 1, 1⟩ text.toList true).2.2
  by_cases hbreak : text.toList.any Page.isBreak = true
  · -- The end of the line ends a section, and no line break of the source is left.
    have hbreaks : 0 < (text.toList.filter Page.isBreak).length := by
      obtain ⟨c, hc, hcb⟩ := List.any_eq_true.1 hbreak
      exact List.length_pos_of_mem (List.mem_filter.2 ⟨hc, hcb⟩)
    generalize hn : (text.toList.filter Page.isBreak).length = n at hbreaks
    have hexplicit : q = { frontPage t cs ⟨octets text.toList + 1, 1 + n + 1, 1⟩ with
        ink := .char '\x0c' :: (fencedInk text).reverse, size := (fencedInk text).length + 1
        last := mark, outLine := 1 + n + 1
        lastPlace := ⟨octets text.toList, 1 + n,
          octets (text.toList.reverse.takeWhile (!Page.isBreak ·)) + 1⟩ } := by
      rw [hq]
      simp [frontPage, Page.putText, Page.putIndent, Page.putSpace, Place.isValid, hn, hbreaks,
        Page.isBreak, fencedInk, inkOf]
    have hnone : q.breaksLeft next true = 0 := by
      have hplace : q.place.line = 1 + n + 1 := by rw [hexplicit]; rfl
      have hzero : min (next.line - (1 + n + 1)) 2 = 0 := by omega
      rw [Page.breaksLeft, hready, hplace]
      simp [hzero, Page.maxBreaks]
    rw [hnone, if_neg (Nat.lt_irrefl 0), hexplicit]
    exact ⟨1 + n + 1, 1 + n, 1 + n + 1, rfl, rfl, by simp [Sheet.front, frontEnd, hbreak],
      by simp [Sheet.front, frontEnd, hbreak], rfl, rfl, rfl, rfl, rfl, Nat.one_pos, rfl, rfl, rfl,
      rfl, rfl, rfl, hmark⟩
  · have hunbroken : ∀ c ∈ text.toList, Page.isBreak c = false := by simpa using hbreak
    obtain ⟨htext, -⟩ := hfront.putText ⟨0, 1, 1⟩ Nat.one_pos hne hunbroken true
    have htext' : Page.Holds t cs _ { ({ frontPage t (g :: cs) next with last := mark } :
      Page).putText ⟨0, 1, 1⟩ text.toList true with comments := cs } :=
      { htext with comments := rfl }
    have hspace := htext'.putSpace '\n'
    rw [← hq] at hspace
    have hone : q.breaksLeft next true = 1 := by
      rw [Page.breaksLeft, hready, hspace.line, hnext]
      rfl
    rw [hone, if_pos Nat.one_pos]
    refine ⟨3, 1, 3, ?_⟩
    have hsheet : ∀ σ, σ = Sheet.front text 3 1 3 → Page.Holds t cs σ (q.putSpace '\n' 1) →
        Page.Holds t cs (.front text 3 1 3) (q.putSpace '\n' 1) := fun σ hσ h => hσ ▸ h
    refine hsheet _ ?_ (hspace.putSpace '\n')
    simp [Sheet.putSpace, Page.isBreak, Sheet.front, frontEnd, hbreak]

/-- The package clause is begun after the comment at the front. -/
theorem exists_draws_front {g : WaitingGroup} {start : Nat} {text : String}
    (hg : g.IsFront t start text) (hstart : t.Has 3 "package" start) (hquiet : QuietOn t cs 3) :
    ∃ (out : Nat) (p : Page),
      (signAt start "package").run (frontPage t (g :: cs) ⟨0, 1, 1⟩) = ((), p) ∧
        p.Shows t cs
          (.stopped 0 (fencedInk text ++ frontEnd text ++ inkOf "package") 3 out 0) := by
  have hline : (t.place start).line = 3 := hstart.start
  have hne : text ≠ "" := by
    rintro rfl
    exact absurd hg.prose.isLine (by decide)
  have hflush := flush_front hg (hquiet start hstart.isOn) (.sign "package")
  obtain ⟨line, lastLine, out, hfront⟩ := exists_holds_front (t := t) cs (g := g) hne hline
    (.sign "package") ⟨by simp, by simp⟩ rfl
  have hput := Page.Shows.putItem_flushed (p := frontPage t (g :: cs) (t.place start)) hflush hfront
    rfl (hline ▸ Nat.zero_lt_succ 2) hstart.ne_empty hstart.unbroken false false
  have hgo : (goTo start).run (frontPage t (g :: cs) ⟨0, 1, 1⟩) =
      ((), frontPage t (g :: cs) (t.place start)) := by
    change ((), if start = 0 then _ else _) = _
    rw [if_neg (Nat.ne_of_gt hstart.isPosition)]
    rfl
  refine ⟨out, (frontPage t (g :: cs) (t.place start)).putItem (.sign "package") "package" false
    false, ?_, ?_⟩
  · change (goTo start >>= fun _ => sign "package").run _ = _
    rw [StateT.run_bind, hgo]
    rfl
  · have hsheet : (Sheet.front text line lastLine out).put 3 (inkOf "package") =
        .stopped 0 (fencedInk text ++ frontEnd text ++ inkOf "package") 3 out 0 := by
      simp [Sheet.front, Sheet.put, Sheet.release, Sheet.putSpaces, Sheet.stopped]
    rw [← hsheet]
    have hplace : (frontPage t (g :: cs) (t.place start)).place.line = 3 := hline
    rwa [hplace] at hput

end NodeFamily.Layout
