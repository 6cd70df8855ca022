import NodeFamily.Proofs.Layout.CommentGroups
import NodeFamily.Proofs.Layout.LineItems

/-!
# Source text in parts

A source text whose comments stand on lines of their own is made of parts, each of which begins with
comments. `ofChars?_of_parts` says what it is cut into: the tokens are the elements of the lines of
code, each on its line, and the comments of a part are a group.
-/

namespace NodeFamily.Layout

/-- Comments on successive lines, and the lines of code after them. -/
structure SourcePart where
  /-- The texts of the comments after their marks. -/
  comments : List String
  /-- The lines of code. -/
  code : List (List Piece)

/-- A comment as it is cut out of its line. -/
def commentText (s : String) : String :=
  String.ofList ((Piece.comment s).chars.filter (· != '\r'))

/-- A comment is a line by itself: it begins the line and ends on it. -/
structure Comment.IsLineOf (t : LineTable) (line : Nat) (s : String) (c : Comment) : Prop where
  /-- The text. -/
  text : c.text = commentText s
  /-- There is such a position. -/
  isPosition : 0 < c.pos
  /-- The comment is on the line. -/
  start : t.line c.pos = line
  /-- The comment begins the line. -/
  column : (t.place c.pos).column = 1
  /-- The comment ends on the line. -/
  stop : t.line c.stop = line
  /-- What comes after the comment is on the line or begins the next one. -/
  next : t.line (c.stop + 1) ≤ line + 1
  /-- The comment goes to the end of the line if nothing is left out of it. -/
  ends : '\r' ∉ s.toList → t.line (c.stop + 1) = line + 1 ∧ (t.place (c.stop + 1)).column = 1

namespace SourcePart

/-- The lines of a part. -/
def lines (p : SourcePart) : List (List Piece) := p.comments.map (fun s => [.comment s]) ++ p.code

/-- The comments of a part are plain texts, and there are elements in its lines of code. -/
structure IsSound (p : SourcePart) : Prop where
  ne_nil : p.comments ≠ []
  plain : ∀ s ∈ p.comments, ∀ c ∈ s.toList, IsPlainChar c
  code : ∀ line ∈ p.code, Piece.IsCode line
  lexemes : ∃ line ∈ p.code, Piece.lineLexemes line ≠ []

/-- The elements of a part that begins on a line. -/
def items (line : Nat) (p : SourcePart) : List Item :=
  Item.ofLines (line + p.comments.length) (p.code.map Piece.lineLexemes)

end SourcePart

/-- The elements of parts, the first of which begins on a line. -/
def partItems (line : Nat) : List SourcePart → List Item
  | [] => []
  | p :: ps => p.items line ++ partItems (line + p.lines.length) ps

/-- The comments of parts, the first of which begins on a line, stand on their lines. -/
def AreGroups (t : LineTable) : (line : Nat) → List SourcePart → List (List Comment) → Prop
  | _, [], groups => groups = []
  | line, p :: ps, groups => ∃ g rest, groups = g :: rest ∧
      List.Forall₂ (fun s c => Comment.IsLineOf t s.2 s.1 c) (p.comments.zipIdx line) g ∧
        AreGroups t (line + p.lines.length) ps rest

open Piece

variable {before after : List (List Piece)}

/-! ## Comments -/

/-- Fewer characters take no more octets. -/
theorem octets_le_of_sublist {cs ds : List Char} (h : cs.Sublist ds) : octets cs ≤ octets ds := by
  induction h with
  | slnil => exact Nat.le_refl _
  | cons c _ ih =>
    rw [octets_cons]
    exact Nat.le_trans ih (Nat.le_add_left _ _)
  | cons_cons c _ ih =>
    rw [octets_cons, octets_cons]
    exact Nat.add_le_add_left ih _

/-- No comment breaks its line. -/
theorem not_mem_charsOf_comment {s : String} (h : ∀ c ∈ s.toList, IsPlainChar c) :
    '\n' ∉ charsOf [.comment s] := by
  have hs : '\n' ∉ s.toList := fun hmem => (h _ hmem).1 rfl
  simpa [charsOf, chars] using hs

/-- A comment that is a line by itself. -/
theorem isLineOf_comment (hbefore : ∀ l ∈ before, '\n' ∉ charsOf l) {s : String}
    (h : ∀ c ∈ s.toList, IsPlainChar c) {next : List Piece} (hnext : '\n' ∉ charsOf next)
    (after : List (List Piece)) :
    Comment.IsLineOf (tableOf (before ++ [.comment s] :: next :: after)) (before.length + 1) s
      ⟨octetsOf before + 1, commentText s⟩ := by
  have hline := not_mem_charsOf_comment h
  have hchars : charsOf [.comment s] = (Piece.comment s).chars := by simp [charsOf]
  have hplace : ∀ k ≤ octets (Piece.comment s).chars,
      (tableOf (before ++ [.comment s] :: next :: after)).place (octetsOf before + k + 1) =
        ⟨octetsOf before + k, before.length + 1, k + 1⟩ := fun k hk =>
    place_tableOf hbefore hline (hchars ▸ hk) (next :: after)
  have hafter : (tableOf (before ++ [.comment s] :: next :: after)).place
      (octetsOf before + octets (Piece.comment s).chars + 1 + 1) =
        ⟨octetsOf before + octets (Piece.comment s).chars + 1, before.length + 1 + 1, 1⟩ := by
    have hlines : ∀ l ∈ before ++ [[.comment s]], '\n' ∉ charsOf l :=
      List.forall_mem_append.2 ⟨hbefore, List.forall_mem_singleton.2 hline⟩
    have hplace := place_tableOf hlines hnext (Nat.zero_le _) after
    rw [octetsOf_append_singleton, hchars, List.append_assoc, List.length_append] at hplace
    exact hplace
  have hstop : (⟨octetsOf before + 1, commentText s⟩ : Comment).stop =
      octetsOf before + octets (commentText s).toList + 1 := Nat.add_right_comm _ _ _
  have hle : octets (commentText s).toList ≤ octets (Piece.comment s).chars := by
    rw [commentText, String.toList_ofList]
    exact octets_le_of_sublist List.filter_sublist
  have hfirst := hplace 0 (Nat.zero_le _)
  have hlast := hplace _ hle
  refine ⟨rfl, Nat.succ_pos _, congrArg Place.line hfirst, congrArg Place.column hfirst, ?_, ?_, ?_⟩
  · rw [hstop]
    exact congrArg Place.line hlast
  · rw [hstop]
    rcases Nat.lt_or_eq_of_le hle with hlt | heq
    · have hwithin := hplace _ (Nat.succ_le_of_lt hlt)
      exact Nat.le_trans (Nat.le_of_eq (congrArg Place.line hwithin)) (Nat.le_succ _)
    · rw [heq]
      exact Nat.le_of_eq (congrArg Place.line hafter)
  · intro hs
    have hsame : (commentText s).toList = (Piece.comment s).chars := by
      rw [commentText, String.toList_ofList, List.filter_eq_self]
      intro c hc
      simp only [chars, List.mem_cons] at hc
      rcases hc with rfl | rfl | rfl | hc
      · decide
      · decide
      · decide
      · simpa using fun h : c = '\r' => hs (h ▸ hc)
    rw [hstop, hsame]
    exact ⟨congrArg Place.line hafter, congrArg Place.column hafter⟩

/-- The comments at the front of a part are on successive lines. -/
theorem exists_group {comments : List String} {code : List (List Piece)}
    (hbefore : ∀ l ∈ before, '\n' ∉ charsOf l)
    (hcomments : ∀ s ∈ comments, ∀ c ∈ s.toList, IsPlainChar c)
    (hcode : ∀ l ∈ code, '\n' ∉ charsOf l) (hne : code ≠ []) (after : List (List Piece)) :
    ∃ g, linesItems (octetsOf before) (comments.map (fun s => [.comment s]) ++ code) =
        g.map Comment.item ++
          linesItems (octetsOf (before ++ comments.map fun s => [.comment s])) code ∧
      List.Forall₂ (fun s c => Comment.IsLineOf
          (tableOf (before ++ (comments.map (fun s => [.comment s]) ++ (code ++ after)))) s.2 s.1 c)
        (comments.zipIdx (before.length + 1)) g := by
  induction comments generalizing before with
  | nil => exact ⟨[], by simp, .nil⟩
  | cons s comments ih =>
    rw [List.forall_mem_cons] at hcomments
    have hline := not_mem_charsOf_comment hcomments.1
    have hbefore' : ∀ l ∈ before ++ [[.comment s]], '\n' ∉ charsOf l :=
      List.forall_mem_append.2 ⟨hbefore, List.forall_mem_singleton.2 hline⟩
    obtain ⟨g, hg, hlines⟩ := ih hbefore' hcomments.2
    -- A line follows, which is that of the next comment or else one of code.
    obtain ⟨next, rest, hnext⟩ := List.exists_cons_of_ne_nil
      (l := comments.map (fun s => [.comment s]) ++ (code ++ after)) (by simp [hne])
    have hunbroken : '\n' ∉ charsOf next := by
      have hall : ∀ l ∈ comments.map (fun s => [.comment s]) ++ code, '\n' ∉ charsOf l :=
        List.forall_mem_append.2 ⟨List.forall_mem_map.2 fun s hs =>
          not_mem_charsOf_comment (hcomments.2 s hs), hcode⟩
      refine hall next ?_
      have hhead : (comments.map (fun s => [Piece.comment s]) ++ code).head? = some next := by
        have hall := congrArg List.head? hnext
        rw [← List.append_assoc, List.head?_append_of_ne_nil _ (by simp [hne])] at hall
        exact hall
      exact List.mem_of_mem_head? hhead
    have hfirst := isLineOf_comment hbefore hcomments.1 hunbroken rest
    rw [← hnext] at hfirst
    refine ⟨⟨octetsOf before + 1, commentText s⟩ :: g, ?_, ?_⟩
    · rw [octetsOf_append_singleton, Nat.add_assoc, ← octets_charsOf_lineBreak,
        List.append_assoc] at hg
      rw [List.map_cons, List.cons_append, linesItems, hg]
      rfl
    · rw [List.append_assoc, List.length_append] at hlines
      rw [List.zipIdx_cons]
      exact .cons hfirst hlines

/-! ## Tokens -/

/-- An element of a piece is no comment. -/
theorem isComment_of_mem_lexemesFrom {ps : List Piece} {ready : Bool} {l : Lexeme}
    (h : l ∈ lexemesFrom ready ps) : l.isComment = false := by
  induction ps generalizing ready with
  | nil => exact absurd h List.not_mem_nil
  | cons p ps ih =>
    rcases List.mem_append.1 h with h | h
    · cases p with
      | blank c => exact absurd h List.not_mem_nil
      | comment t => exact absurd h List.not_mem_nil
      | lineBreak =>
        rw [lexemes] at h
        split at h
        · obtain rfl := List.mem_singleton.1 h
          rfl
        · exact absurd h List.not_mem_nil
      | _ =>
        obtain rfl := List.mem_singleton.1 h
        rfl
    · exact ih h

/-- The elements of lines are those of one of them. -/
theorem exists_of_mem_ofLines {lss : List (List Lexeme)} {line : Nat} {i : Item}
    (h : i ∈ Item.ofLines line lss) :
    (∃ ls ∈ lss, i.lexeme ∈ ls) ∧ i.line < line + lss.length := by
  induction lss generalizing line with
  | nil => exact absurd h List.not_mem_nil
  | cons ls lss ih =>
    rcases List.mem_append.1 h with h | h
    · obtain ⟨l, hl, rfl⟩ := List.mem_map.1 h
      exact ⟨⟨ls, List.mem_cons_self, hl⟩, by simp⟩
    · obtain ⟨⟨ls', hls', hl⟩, hline⟩ := ih h
      refine ⟨⟨ls', List.mem_cons_of_mem _ hls', hl⟩, ?_⟩
      rw [List.length_cons]
      omega

/-- There are elements when there are some on a line. -/
theorem ofLines_ne_nil {lss : List (List Lexeme)} (h : ∃ ls ∈ lss, ls ≠ []) (line : Nat) :
    Item.ofLines line lss ≠ [] := by
  induction lss generalizing line with
  | nil => simp at h
  | cons ls lss ih =>
    rw [Item.ofLines_cons, ne_eq, List.append_eq_nil_iff, not_and]
    intro hls
    obtain rfl : ls = [] := List.map_eq_nil_iff.1 hls
    exact ih (by simpa using h) (line + 1)

/-- Comments that are lines by themselves stand on successive lines, from the first one on. -/
theorem isChain_of_isLineOf {t : LineTable} {comments : List String} {g : List Comment} {line : Nat}
    (h : List.Forall₂ (fun s c => Comment.IsLineOf t s.2 s.1 c) (comments.zipIdx line) g) :
    (g.IsChain fun c d => t.line d.pos ≤ t.line c.pos + c.breaks + 1) ∧
      ∀ c ∈ g.head?, t.line c.pos = line := by
  induction comments generalizing line g with
  | nil =>
    obtain rfl : g = [] := by simpa using h
    exact ⟨.nil, by simp⟩
  | cons s comments ih =>
    rw [List.zipIdx_cons, List.forall₂_cons_left_iff] at h
    obtain ⟨c, g, hc, hg, rfl⟩ := h
    obtain ⟨hchain, hfirst⟩ := ih hg
    refine ⟨List.isChain_cons.2 ⟨fun d hd => ?_, hchain⟩, by simpa using hc.start⟩
    have hline := hfirst d hd
    have hstart := hc.start
    dsimp only at hstart
    omega

/-- Tokens of elements that stand on lines stand for them. -/
theorem forall₂_standsFor {t : LineTable} {ts : List Token} {items : List (Nat × Lexeme)}
    {is : List Item} (hts : List.Forall₂ Token.IsPlain ts items)
    (his : List.Forall₂ (Stands t) items is) : List.Forall₂ (Token.StandsFor t) ts is := by
  induction hts generalizing is with
  | nil =>
    cases his
    exact .nil
  | cons htoken _ ih =>
    obtain ⟨i, rest, hi, hrest, rfl⟩ := List.forall₂_cons_left_iff.1 his
    refine .cons ⟨htoken.lexeme.trans hi.lexeme, fun text htext => ?_, htoken.aside⟩ (ih hrest)
    rw [htoken.pos]
    exact hi.place text htext

/-- What stands where the elements of a part do is an element of the part. -/
theorem exists_stands {t : LineTable} {items : List (Nat × Lexeme)} {is : List Item}
    (h : List.Forall₂ (Stands t) items is) : ∀ item ∈ items, ∃ i ∈ is, Stands t item i := by
  intro item hitem
  obtain ⟨n, hn, rfl⟩ := List.mem_iff_getElem.1 hitem
  exact ⟨_, List.getElem_mem (h.length_eq ▸ hn), h.get hn (h.length_eq ▸ hn)⟩

/-- The comments of a part and the elements of its code make a section. -/
theorem SourcePart.IsSound.isProper {p : SourcePart} (h : p.IsSound) {t : LineTable}
    {g : List Comment} {items : List (Nat × Lexeme)} {line prev : Nat}
    (hg : List.Forall₂ (fun s c => Comment.IsLineOf t s.2 s.1 c) (p.comments.zipIdx line) g)
    (hitems : List.Forall₂ (Stands t) items (p.items line))
    (hprev : prev = 0 ∨ t.line prev < line) : CommentSection.IsProper t.line prev ⟨g, items⟩ := by
  obtain ⟨hchain, hfirst⟩ := isChain_of_isLineOf hg
  refine ⟨?_, ?_, hchain, hprev.imp_right fun hprev c hc => ?_, ?_⟩
  · rintro rfl
    exact h.ne_nil (by simpa using hg)
  · rintro rfl
    obtain ⟨l, hl, hlexemes⟩ := h.lexemes
    exact ofLines_ne_nil ⟨_, List.mem_map_of_mem hl, hlexemes⟩ _ (List.forall₂_nil_left_iff.1 hitems)
  · rw [hfirst c hc]
    exact Nat.ne_of_gt hprev
  · intro item hitem
    obtain ⟨i, hi, hstands⟩ := exists_stands hitems item hitem
    obtain ⟨ls, hls, hl⟩ := (exists_of_mem_ofLines hi).1
    obtain ⟨line, -, rfl⟩ := List.mem_map.1 hls
    rw [hstands.lexeme]
    exact isComment_of_mem_lexemesFrom hl

/-- The elements after a part are taken, and then those of the part. -/
theorem SourcePart.IsSound.exists_tokensFrom {p : SourcePart} (h : p.IsSound)
    (hbefore : ∀ l ∈ before, '\n' ∉ charsOf l) {t : LineTable}
    (ht : t = tableOf (before ++ (p.lines ++ after))) {prev : Nat}
    (hprev : prev = 0 ∨ t.line prev ≤ before.length) (fuel : Nat) (rest : List (Nat × Lexeme)) :
    ∃ ts g prev', tokensFrom t.line ((linesItems (octetsOf before) p.lines).length + fuel) prev
        (linesItems (octetsOf before) p.lines ++ rest) =
          (ts ++ (tokensFrom t.line (g.length + fuel) prev' rest).1,
            g :: (tokensFrom t.line (g.length + fuel) prev' rest).2) ∧
      List.Forall₂ (Token.StandsFor t) ts (p.items (before.length + 1)) ∧
      List.Forall₂ (fun s c => Comment.IsLineOf t s.2 s.1 c)
        (p.comments.zipIdx (before.length + 1)) g ∧
      t.line prev' ≤ (before ++ p.lines).length := by
  have hcode : p.code ≠ [] := by
    obtain ⟨l, hl, -⟩ := h.lexemes
    exact List.ne_nil_of_mem hl
  obtain ⟨g, hsplit, hg⟩ := exists_group hbefore h.plain
    (fun l hl => (h.code l hl).not_mem) hcode after
  have hbefore' : ∀ l ∈ before ++ p.comments.map (fun s => [.comment s]), '\n' ∉ charsOf l :=
    List.forall_mem_append.2 ⟨hbefore, List.forall_mem_map.2 fun s hs =>
      not_mem_charsOf_comment (h.plain s hs)⟩
  have hitems := stands_linesItems hbefore' h.code after
  rw [lines, List.append_assoc] at ht
  rw [List.append_assoc] at hitems
  rw [← ht] at hg hitems
  have hline : (before ++ p.comments.map (fun s => [Piece.comment s])).length + 1 =
      before.length + 1 + p.comments.length := by
    rw [List.length_append, List.length_map]
    omega
  rw [hline] at hitems
  generalize hall : linesItems (octetsOf (before ++ p.comments.map fun s => [.comment s])) p.code =
    items at hsplit hitems
  have hsection : CommentSection.IsProper t.line prev ⟨g, items⟩ :=
    h.isProper hg hitems (hprev.imp_right Nat.lt_succ_of_le)
  obtain ⟨ts, hts, hrun⟩ := tokensFrom_section hsection (g.length + fuel) rest
  refine ⟨ts, g, (items.getLast?.map Prod.fst).getD 0, ?_, forall₂_standsFor hts hitems, hg, ?_⟩
  · have hfuel : (linesItems (octetsOf before) p.lines).length + fuel =
        items.length + (g.length + fuel) := by
      rw [lines, hsplit, List.length_append, List.length_map]
      omega
    rw [hfuel, lines, hsplit]
    exact hrun
  · obtain ⟨item, hitem⟩ :=
      Option.ne_none_iff_exists'.1 (mt List.getLast?_eq_none_iff.1 hsection.items)
    obtain ⟨i, hi, hstands⟩ := exists_stands hitems item (List.mem_of_getLast? hitem)
    have hlast := (exists_of_mem_ofLines hi).2
    rw [hitem, Option.map_some, Option.getD_some, hstands.line, lines]
    simp only [List.length_append, List.length_map] at hlast ⊢
    omega

/-- No line of a part is broken. -/
theorem SourcePart.IsSound.not_mem {p : SourcePart} (h : p.IsSound) :
    ∀ l ∈ p.lines, '\n' ∉ charsOf l :=
  List.forall_mem_append.2 ⟨List.forall_mem_map.2 fun s hs => not_mem_charsOf_comment (h.plain s hs),
    fun l hl => (h.code l hl).not_mem⟩

/-- The elements of lines are those of the first ones and of the others. -/
theorem linesItems_append (before a b : List (List Piece)) :
    linesItems (octetsOf before) (a ++ b) =
      linesItems (octetsOf before) a ++ linesItems (octetsOf (before ++ a)) b := by
  induction a generalizing before with
  | nil => simp [linesItems]
  | cons line a ih =>
    have hrest := ih (before ++ [line])
    rw [octetsOf_append_singleton, Nat.add_assoc, ← octets_charsOf_lineBreak,
      List.append_assoc] at hrest
    rw [List.cons_append, linesItems, linesItems, hrest, List.append_assoc]
    rfl

/-- The elements of parts are taken part by part, and then the end of the text. -/
theorem exists_tokensFrom {parts : List SourcePart} (h : ∀ p ∈ parts, p.IsSound)
    (hbefore : ∀ l ∈ before, '\n' ∉ charsOf l) {t : LineTable}
    (ht : t = tableOf (before ++ parts.flatMap SourcePart.lines)) {prev : Nat}
    (hprev : prev = 0 ∨ t.line prev ≤ before.length) (last : Nat) {fuel : Nat} (hfuel : 0 < fuel) :
    ∃ ts groups, tokensFrom t.line
        ((linesItems (octetsOf before) (parts.flatMap SourcePart.lines)).length + fuel) prev
        (linesItems (octetsOf before) (parts.flatMap SourcePart.lines) ++ [(last, .finish)]) =
          (ts, groups) ∧
      List.Forall₂ (Token.StandsFor t) ts (partItems (before.length + 1) parts ++ [⟨0, .finish⟩]) ∧
      AreGroups t (before.length + 1) parts groups := by
  induction parts generalizing before prev fuel with
  | nil =>
    obtain ⟨fuel, rfl⟩ := Nat.exists_eq_add_one_of_ne_zero (Nat.ne_of_gt hfuel)
    have hplain : ∀ item ∈ [(last, Lexeme.finish)], item.2.isComment = false := by
      simp [Lexeme.isComment]
    obtain ⟨ts, hts, hrun⟩ := tokensFrom_items t.line hplain fuel prev []
    have hend : ∀ prev, tokensFrom t.line fuel prev [] = ([], []) := by
      cases fuel <;> exact fun _ => rfl
    rw [hend, List.append_nil, List.append_nil, List.length_singleton] at hrun
    refine ⟨ts, [], ?_, ?_, rfl⟩
    · rw [List.flatMap_nil, linesItems, List.length_nil, Nat.zero_add, List.nil_append,
        Nat.add_comm fuel]
      exact hrun
    · obtain ⟨token, rest, htoken, hrest, rfl⟩ := List.forall₂_cons_right_iff.1 hts
      obtain rfl := List.forall₂_nil_right_iff.1 hrest
      exact .cons ⟨htoken.lexeme, fun text htext => absurd htext (by simp [Lexeme.text?]),
        htoken.aside⟩ .nil
  | cons p parts ih =>
    rw [List.forall_mem_cons] at h
    rw [List.flatMap_cons] at ht ⊢
    obtain ⟨ts, g, prev', hrun, hts, hg, hprev'⟩ := h.1.exists_tokensFrom hbefore ht hprev
      ((linesItems (octetsOf (before ++ p.lines)) (parts.flatMap SourcePart.lines)).length + fuel)
      (linesItems (octetsOf (before ++ p.lines)) (parts.flatMap SourcePart.lines) ++
        [(last, .finish)])
    rw [← List.append_assoc] at ht
    have hall : ∀ l ∈ before ++ p.lines, '\n' ∉ charsOf l :=
      List.forall_mem_append.2 ⟨hbefore, h.1.not_mem⟩
    obtain ⟨ts', groups, hrun', hts', hgroups⟩ := ih h.2 hall ht (.inr hprev')
      (Nat.add_pos_right g.length hfuel)
    have hline : (before ++ p.lines).length + 1 = before.length + 1 + p.lines.length := by
      rw [List.length_append]
      omega
    rw [hline] at hts' hgroups
    rw [Nat.add_left_comm g.length, hrun'] at hrun
    refine ⟨ts ++ ts', g :: groups, ?_, ?_, ⟨g, groups, rfl, hg, hgroups⟩⟩
    · rw [linesItems_append, List.length_append, Nat.add_assoc, List.append_assoc]
      exact hrun
    · rw [partItems, List.append_assoc]
      exact List.rel_append hts hts'

/-- What a text in parts is cut into. -/
theorem ofChars?_of_parts {parts : List SourcePart} (h : ∀ p ∈ parts, p.IsSound)
    (hfits : ∀ line ∈ parts.flatMap SourcePart.lines, lineFits line = true) :
    ∃ source, Source.ofChars? (charsOf (ofLines (parts.flatMap SourcePart.lines))) = some source ∧
      source.table = tableOf (parts.flatMap SourcePart.lines) ∧
      List.Forall₂ (Token.StandsFor source.table) source.tokens
        (partItems 1 parts ++ [⟨0, .finish⟩]) ∧
      AreGroups source.table 1 parts source.comments := by
  have hsound : ∀ line ∈ parts.flatMap SourcePart.lines, ∀ p ∈ line, p.IsSound := by
    intro line hline
    obtain ⟨p, hp, hline⟩ := List.mem_flatMap.1 hline
    rcases List.mem_append.1 hline with hline | hline
    · obtain ⟨s, hs, rfl⟩ := List.mem_map.1 hline
      exact List.forall_mem_singleton.2 ((h p hp).plain s hs)
    · exact ((h p hp).code line hline).sound
  have hnone : ∀ l ∈ ([] : List (List Piece)), '\n' ∉ charsOf l := by simp
  obtain ⟨ts, groups, hrun, hts, hgroups⟩ := exists_tokensFrom h hnone rfl (.inl rfl)
    (octets (charsOf (ofLines (parts.flatMap SourcePart.lines))) + 1) Nat.two_pos
  refine ⟨⟨tableOf (parts.flatMap SourcePart.lines), ts, groups⟩, ?_, rfl, hts, hgroups⟩
  rw [Source.ofChars?, lexemes?_ofLines hsound hfits, Option.map_some]
  dsimp only
  rw [List.length_append, List.length_singleton]
  exact congrArg (fun r : List Token × List (List Comment) =>
    some (Source.mk (tableOf (parts.flatMap SourcePart.lines)) r.1 r.2)) hrun

end NodeFamily.Layout
