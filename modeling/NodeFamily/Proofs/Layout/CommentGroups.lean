import Mathlib.Data.List.Chain
import Mathlib.Data.List.Forall2
import NodeFamily.Layout.Token

/-!
# Comments between tokens

A text whose comments stand on lines of their own is made of sections: a group of comments on
successive lines, and then elements that are no comments. `tokensFrom_sections` says what its tokens
and its groups of comments are; no comment stands beside a token.
-/

namespace NodeFamily.Layout

/-- Whether an element is a comment. -/
def Lexeme.isComment : Lexeme → Bool
  | .comment _ => true
  | _ => false

/-- A comment as an element with its position. -/
def Comment.item (c : Comment) : Nat × Lexeme := (c.pos, .comment c.text)

/-- Comments with the elements after them. -/
structure CommentSection where
  /-- The comments. -/
  comments : List Comment
  /-- The elements, each with its position. -/
  items : List (Nat × Lexeme)

/-- The elements of a section, its comments included. -/
def CommentSection.all (s : CommentSection) : List (Nat × Lexeme) :=
  s.comments.map Comment.item ++ s.items

/-- A section after a token at a position, which is zero at the start: its comments are a group, and
none of them stands beside that token. -/
structure CommentSection.IsProper (line : Nat → Nat) (before : Nat) (s : CommentSection) : Prop where
  /-- There is a comment. -/
  comments : s.comments ≠ []
  /-- There is an element. -/
  items : s.items ≠ []
  /-- The comments stand on successive lines. -/
  chain : s.comments.IsChain fun c d => line d.pos ≤ line c.pos + c.breaks + 1
  /-- No comment stands beside the token before. -/
  apart : before = 0 ∨ ∀ c ∈ s.comments.head?, line c.pos ≠ line before
  /-- The elements are no comments. -/
  plain : ∀ item ∈ s.items, item.2.isComment = false

/-- A token is that of an element with its position, and no comment stands beside it. -/
structure Token.IsPlain (t : Token) (item : Nat × Lexeme) : Prop where
  /-- The element. -/
  lexeme : t.lexeme = item.2
  /-- The position. -/
  pos : t.pos = item.1
  /-- No comment stands beside the token. -/
  aside : t.aside = []

variable {line : Nat → Nat}

/-- An element that is no comment begins no group. -/
theorem takeGroups_plain {fuel : Nat} {items : List (Nat × Lexeme)}
    (h : ∀ item ∈ items.head?, item.2.isComment = false) :
    takeGroups line fuel items = ([], none, items) := by
  cases items with
  | nil => cases fuel <;> rfl
  | cons item items =>
    obtain ⟨pos, l⟩ := item
    cases l with
    | comment text => exact absurd (h _ rfl) (by simp [Lexeme.isComment])
    | _ => cases fuel <;> rfl

/-- A group of comments on successive lines is taken as a whole. -/
theorem takeGroup_chain {cs : List Comment} {last : Nat} {rest : List (Nat × Lexeme)}
    (hchain : cs.IsChain fun c d => line d.pos ≤ line c.pos + c.breaks + 1)
    (hlast : ∀ c ∈ cs.head?, line c.pos ≤ last + 1)
    (hrest : ∀ item ∈ rest.head?, item.2.isComment = false) :
    ∃ final, takeGroup line 1 last (cs.map Comment.item ++ rest) = (cs, final, rest) := by
  -- Each comment is on the line after the last one or above, and the first other element stops this.
  induction cs generalizing last with
  | nil =>
    refine ⟨last, ?_⟩
    cases rest with
    | nil => rfl
    | cons item rest =>
      obtain ⟨pos, l⟩ := item
      cases l with
      | comment text => exact absurd (hrest _ rfl) (by simp [Lexeme.isComment])
      | _ => rfl
  | cons c cs ih =>
    obtain ⟨hnext, hcs⟩ := List.isChain_cons.1 hchain
    obtain ⟨final, hfinal⟩ := ih hcs hnext
    refine ⟨final, ?_⟩
    rw [List.map_cons, List.cons_append, Comment.item, takeGroup, if_pos (hlast c rfl)]
    simp only [hfinal]

/-- One step: when no comment stands beside the token before, the groups of comments at the front and
the element after them are taken. -/
theorem tokensFrom_step {fuel before pos first : Nat} {l head : Lexeme}
    {tail rest : List (Nat × Lexeme)} {groups : List (List Comment)} {final : Option Nat}
    (hbeside : head.isComment = false ∨ before = 0 ∨ line first ≠ line before)
    (hgroups : takeGroups line (fuel + 1) ((first, head) :: tail) =
      (groups, final, (pos, l) :: rest)) :
    ∃ t : Token, t.IsPlain (pos, l) ∧ tokensFrom line (fuel + 1) before ((first, head) :: tail) =
      (t :: (tokensFrom line fuel pos rest).1, groups ++ (tokensFrom line fuel pos rest).2) := by
  -- Comments beside the token before would be taken first; there are none.
  have hnone : ∃ last, (if before > 0 && line first == line before then
      takeGroup line 0 (line first) ((first, head) :: tail) else ([], 0, (first, head) :: tail)) =
        ([], last, (first, head) :: tail) := by
    by_cases hline : (decide (before > 0) && line first == line before) = true
    · refine ⟨line first, ?_⟩
      rw [if_pos hline]
      simp only [Bool.and_eq_true, decide_eq_true_eq, beq_iff_eq] at hline
      cases head with
      | comment text =>
        rcases hbeside with hbeside | rfl | hbeside
        · simp [Lexeme.isComment] at hbeside
        · exact absurd hline.1 (Nat.lt_irrefl 0)
        · exact absurd hline.2 hbeside
      | _ => rfl
    · exact ⟨0, if_neg hline⟩
  obtain ⟨last, hlast⟩ := hnone
  refine ⟨⟨l, pos, final.any fun n => n + 1 == line pos, []⟩, ⟨rfl, rfl, rfl⟩, ?_⟩
  rw [tokensFrom]
  dsimp only
  rw [hlast]
  dsimp only
  rw [hgroups]
  simp

/-- Elements that are no comments are tokens by themselves. -/
theorem tokensFrom_items (line : Nat → Nat) {items : List (Nat × Lexeme)}
    (h : ∀ item ∈ items, item.2.isComment = false) (fuel before : Nat)
    (rest : List (Nat × Lexeme)) :
    ∃ ts, List.Forall₂ Token.IsPlain ts items ∧
      tokensFrom line (items.length + fuel) before (items ++ rest) =
        (ts ++ (tokensFrom line fuel ((items.getLast?.map Prod.fst).getD before) rest).1,
          (tokensFrom line fuel ((items.getLast?.map Prod.fst).getD before) rest).2) := by
  induction items generalizing before with
  | nil => exact ⟨[], .nil, by simp⟩
  | cons item items ih =>
    rw [List.forall_mem_cons] at h
    obtain ⟨ts, hts, hrun⟩ := ih h.2 item.1
    have hbeside : item.2.isComment = false ∨ before = 0 ∨ line item.1 ≠ line before := .inl h.1
    have hgroups : takeGroups line (items.length + fuel + 1)
        ((item.1, item.2) :: (items ++ rest)) = ([], none, item :: (items ++ rest)) :=
      takeGroups_plain (by simpa using h.1)
    obtain ⟨t, ht, hstep⟩ := tokensFrom_step hbeside hgroups
    refine ⟨t :: ts, .cons ht hts, ?_⟩
    rw [List.length_cons, Nat.add_right_comm, List.cons_append, hstep, hrun]
    have hlast : ((item :: items).getLast?.map Prod.fst).getD before =
        (items.getLast?.map Prod.fst).getD item.1 := by
      rw [List.getLast?_cons]
      cases items.getLast? <;> rfl
    simp [hlast]

/-- A section is taken: its comments are a group, and its elements are tokens. -/
theorem tokensFrom_section {before : Nat} {s : CommentSection} (h : s.IsProper line before)
    (fuel : Nat) (rest : List (Nat × Lexeme)) :
    ∃ ts, List.Forall₂ Token.IsPlain ts s.items ∧
      tokensFrom line (s.items.length + fuel) before (s.all ++ rest) =
        (ts ++ (tokensFrom line fuel ((s.items.getLast?.map Prod.fst).getD 0) rest).1,
          s.comments :: (tokensFrom line fuel ((s.items.getLast?.map Prod.fst).getD 0) rest).2) := by
  obtain ⟨comments, items⟩ := s
  obtain ⟨hcomments, hitems, hchain, hapart, hplain⟩ := h
  dsimp only at hcomments hitems hchain hapart hplain ⊢
  obtain ⟨c, cs, rfl⟩ := List.exists_cons_of_ne_nil hcomments
  obtain ⟨⟨pos, l⟩, items, rfl⟩ := List.exists_cons_of_ne_nil hitems
  rw [List.forall_mem_cons] at hplain
  have hrest : ∀ item ∈ ((pos, l) :: (items ++ rest)).head?, item.2.isComment = false := by
    simpa using hplain.1
  have hfirst : ∀ d ∈ (c :: cs).head?, line d.pos ≤ line c.pos + 1 := by simp
  obtain ⟨final, hgroup⟩ := takeGroup_chain hchain hfirst hrest
  have hgroups : takeGroups line (items.length + fuel + 1)
      ((c.pos, .comment c.text) :: (cs.map Comment.item ++ (pos, l) :: (items ++ rest))) =
        ([c :: cs], some final, (pos, l) :: (items ++ rest)) := by
    rw [List.map_cons, List.cons_append, Comment.item] at hgroup
    rw [takeGroups, hgroup]
    dsimp only
    rw [takeGroups_plain hrest]
    rfl
  have hbeside : before = 0 ∨ line c.pos ≠ line before := hapart.imp_right fun h => h c rfl
  obtain ⟨t, ht, hstep⟩ := tokensFrom_step (.inr hbeside) hgroups
  obtain ⟨ts, hts, hrun⟩ := tokensFrom_items line hplain.2 fuel pos rest
  refine ⟨t :: ts, .cons ht hts, ?_⟩
  have hlast : (((pos, l) :: items).getLast?.map Prod.fst).getD 0 =
      (items.getLast?.map Prod.fst).getD pos := by
    rw [List.getLast?_cons]
    cases items.getLast? <;> rfl
  have hall : CommentSection.all ⟨c :: cs, (pos, l) :: items⟩ ++ rest =
      (c.pos, .comment c.text) :: (cs.map Comment.item ++ (pos, l) :: (items ++ rest)) := by
    simp [CommentSection.all, Comment.item]
  rw [hall, List.length_cons, Nat.add_right_comm, hstep, hrun, hlast]
  rfl

end NodeFamily.Layout
