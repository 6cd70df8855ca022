import NodeFamily.Proofs.Layout.CommentWriting
import NodeFamily.Proofs.Layout.Places
import NodeFamily.Proofs.Layout.SourceParts

/-!
# Where comments wait

A group of comments that are lines by themselves waits on the page from its first line on. It is the
comment at the front of a text (`IsGroupFrom.isFront`) or the documentation of the declaration on
the next line (`IsGroupFrom.isAbove`), and nothing on an earlier line comes after it
(`IsGroupFrom.quietOn`).
-/

namespace NodeFamily.Layout

open LineTable

/-- A group of comments with the given texts that are lines by themselves, the first of which is
given. -/
structure IsGroupFrom (t : LineTable) (line : Nat) (texts : List String) (g : List Comment) :
    Prop where
  /-- The texts. -/
  text_eq : g.map Comment.text = texts.map commentText
  /-- There is a first comment, with a position. -/
  first : ∃ c rest, g = c :: rest ∧ 0 < c.pos
  /-- The first comment is on the line. -/
  start : t.line (ImportOrder.groupStart g) = line
  /-- The first comment begins the line. -/
  column : (t.place (ImportOrder.groupStart g)).column = 1
  /-- There is such a position. -/
  isStop : 0 < Page.groupStop g
  /-- The last comment ends as many lines on as there are others. -/
  stop : t.line (Page.groupStop g) + 1 = line + texts.length
  /-- What comes after the last comment is on its line or begins the next one. -/
  next : t.line (Page.groupStop g + 1) ≤ line + texts.length
  /-- The last comment goes to the end of its line if nothing is left out of it. -/
  ends : (∀ s ∈ texts, '\r' ∉ s.toList) → t.line (Page.groupStop g + 1) = line + texts.length ∧
    (t.place (Page.groupStop g + 1)).column = 1

variable {t : LineTable} {line : Nat} {texts : List String} {g : List Comment}

/-- Comments that are lines by themselves are a group. -/
theorem isGroupFrom_of_lines (hne : texts ≠ [])
    (h : List.Forall₂ (fun s c => Comment.IsLineOf t s.2 s.1 c) (texts.zipIdx line) g) :
    IsGroupFrom t line texts g := by
  induction texts generalizing line g with
  | nil => exact absurd rfl hne
  | cons s texts ih =>
    rw [List.zipIdx_cons, List.forall₂_cons_left_iff] at h
    obtain ⟨c, g, hc, hg, rfl⟩ := h
    have hstart : ImportOrder.groupStart (c :: g) = c.pos := rfl
    cases texts with
    | nil =>
      obtain rfl : g = [] := by simpa using hg
      have hstop : Page.groupStop [c] = c.stop := rfl
      exact ⟨by simpa using hc.text, ⟨c, [], rfl, hc.isPosition⟩, hstart ▸ hc.start,
        hstart ▸ hc.column, Nat.lt_of_lt_of_le hc.isPosition (Nat.le_add_right _ _),
        congrArg (· + 1) (hstop ▸ hc.stop), hstop ▸ hc.next,
        fun hreturn => hstop ▸ hc.ends (hreturn s List.mem_cons_self)⟩
    | cons s' texts =>
      have hrest := ih (List.cons_ne_nil _ _) hg
      have hstop : Page.groupStop (c :: g) = Page.groupStop g := by
        obtain ⟨c', g, rfl, -⟩ := hrest.first
        rfl
      have hlines : line + 1 + (s' :: texts).length = line + (s :: s' :: texts).length := by
        simp only [List.length_cons]
        omega
      refine ⟨?_, ⟨c, g, rfl, hc.isPosition⟩, hstart ▸ hc.start, hstart ▸ hc.column,
        hstop ▸ hrest.isStop, ?_, ?_, ?_⟩
      · rw [List.map_cons, hrest.text_eq, hc.text, List.map_cons (l := s' :: texts)]
      · rw [hstop, ← hlines, hrest.stop]
      · rw [hstop, ← hlines]
        exact hrest.next
      · rw [List.forall_mem_cons, hstop, ← hlines]
        exact fun hreturn => hrest.ends hreturn.2

namespace IsGroupFrom

variable {cs : List Char}

/-- A group has a position. -/
theorem isPosition (h : IsGroupFrom t line texts g) : 0 < ImportOrder.groupStart g := by
  obtain ⟨c, rest, rfl, hc⟩ := h.first
  exact hc

/-- A group waits at the offset where it starts. -/
theorem offset_eq (h : IsGroupFrom t line texts g) :
    (WaitingGroup.of t g).offset = (t.place (ImportOrder.groupStart g)).offset := by
  obtain ⟨c, rest, rfl, -⟩ := h.first
  rfl

/-- Something on a later line comes after the group. -/
theorem offset_lt (h : IsGroupFrom (ofText cs) line texts g) {pos : Nat} (hpos : 0 < pos)
    (hline : line < (ofText cs).line pos) :
    (WaitingGroup.of (ofText cs) g).offset < ((ofText cs).place pos).offset := by
  rw [h.offset_eq]
  exact offset_lt_of_line_lt h.isPosition hpos (h.start.symm ▸ hline)

/-- Nothing on an earlier line comes after the group. -/
theorem quietOn (h : IsGroupFrom (ofText cs) line texts g) {m : Nat} (hm : m < line)
    (gs : List WaitingGroup) : QuietOn (ofText cs) (WaitingGroup.of (ofText cs) g :: gs) m := by
  intro pos hpos g' hg'
  obtain rfl : WaitingGroup.of (ofText cs) g = g' := Option.some.inj hg'
  rw [h.offset_eq]
  refine Nat.le_of_lt (offset_lt_of_line_lt hpos.isPosition h.isPosition ?_)
  rw [hpos.line_eq, h.start]
  exact hm

/-- A group is above what begins the line after it. -/
theorem isAbove (h : IsGroupFrom (ofText cs) line texts g) (hreturn : ∀ s ∈ texts, '\r' ∉ s.toList)
    (hne : texts ≠ []) {start : Nat}
    (hstart : (ofText cs).Has (line + texts.length) "type" start) :
    (WaitingGroup.of (ofText cs) g).IsAbove (ofText cs) line start (texts.map commentText) := by
  obtain ⟨hnext, hcolumn⟩ := h.ends hreturn
  have hlines : line < (ofText cs).line start := by
    rw [hstart.start]
    exact Nat.lt_add_of_pos_right (List.length_pos_of_ne_nil hne)
  refine ⟨h.text_eq, ?_, (congrArg (line + ·) (List.length_map commentText)).symm ▸ h.stop, ?_,
    h.offset_lt hstart.isPosition hlines⟩
  · obtain ⟨c, rest, rfl, -⟩ := h.first
    intro c' hc'
    obtain rfl : c = c' := Option.some.inj hc'
    exact ⟨h.start, h.column⟩
  · refine place_eq_of_column (Nat.succ_pos _) hstart.isPosition ?_ ?_
    · rw [hstart.start]
      exact hnext
    · rw [hstart.opens rfl]
      exact hcolumn

/-- The start of a text. -/
theorem place_start (cs : List Char) : (ofText cs).place 1 = ⟨0, 1, 1⟩ := by
  have hnone : started cs 0 = [] := by
    rw [started, List.filter_eq_nil_iff]
    intro m hm
    have hpos := (mem_offsetsAfterBreaks (List.mem_of_mem_filter hm)).1
    simpa using Nat.ne_of_gt hpos
  rw [place_ofText cs (Nat.zero_le _), hnone]
  rfl

/-- A comment on the first line that something on a line after the second one follows is the comment
at the front. -/
theorem isFront {s : String} (h : IsGroupFrom (ofText cs) 1 [s] g) (hprose : IsProse (commentText s))
    {start : Nat} (hpos : 0 < start) (hstart : 2 < (ofText cs).line start) :
    (WaitingGroup.of (ofText cs) g).IsFront (ofText cs) start (commentText s) := by
  obtain ⟨c, rest, rfl, hc⟩ := h.first
  obtain ⟨htext, hrest⟩ : c.text = commentText s ∧ rest = [] := by simpa using h.text_eq
  subst hrest
  refine ⟨hprose, ⟨c, rfl, htext, ?_⟩, fun hplace => ?_, h.offset_lt hpos (by omega)⟩
  · rw [← place_start cs]
    refine place_eq_of_column hc Nat.one_pos ?_ ?_
    · rw [LineTable.line, LineTable.line, place_start]
      exact h.start
    · rw [place_start]
      exact h.column
  · have hnext : (ofText cs).line (Page.groupStop [c] + 1) ≤ 2 := h.next
    rw [LineTable.line] at hnext hstart
    have hsame : ((ofText cs).place (Page.groupStop [c] + 1)).line =
        ((ofText cs).place start).line := congrArg Place.line hplace
    omega

end IsGroupFrom

end NodeFamily.Layout
