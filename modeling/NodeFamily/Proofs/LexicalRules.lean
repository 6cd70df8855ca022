import Mathlib.Data.List.Basic
import NodeFamily.Proofs.Lexing

/-!
# The rules of the lexer

The lexer is stated once more by its rules. Each sort of token has a rule that says of a text
whether it is such a token (`TokenKind.Matches`). At each place of a declaration the first rule that
applies decides, and it takes as much as it can (`Takes`). `Scans` relates a declaration to the
tokens that come about in this way. Some rule applies wherever the declaration goes on, and only one
token can be taken there, so that every declaration is scanned, and as `lexFrom` has it
(`scans_iff`).
-/

namespace NodeFamily

open Token (opensName continuesName nameExtent wordExtent front lexFrom)

/-! ## What rules match -/

/-- A name inside a word. -/
def IsNameRun (cs : List Char) : Prop :=
  ∃ c rest, cs = c :: rest ∧ opensName c = true ∧ ∀ d ∈ rest, continuesName d = true

/-- A word: a name with an optional star before it and an optional dotted tail. -/
def IsWordText (cs : List Char) : Prop :=
  ∃ star name tail, cs = star ++ (name ++ tail) ∧ (star = [] ∨ star = ['*']) ∧ IsNameRun name ∧
    (tail = [] ∨ ∃ member, tail = '.' :: member ∧ IsNameRun member)

namespace TokenKind

/-- The rule for a sort of token: which texts are such tokens. No rule but the one for spacing
takes a line break. -/
def Matches : TokenKind → List Char → Prop
  | .word, w => IsWordText w
  | .colon, w => w = [':']
  | .comma, w => w = [',']
  | .spacing, w => w ≠ [] ∧ IsGap w
  | .other, w => ∃ c, c ≠ '\n' ∧ w = [c]

/-- The rules in the order in which they are tried. -/
def rules : List TokenKind := [.word, .colon, .comma, .spacing, .other]

/-- The place of a rule among all. -/
def rank (k : TokenKind) : Nat := rules.idxOf k

/-- No two rules have the same place. -/
theorem rank_injective {k l : TokenKind} (h : k.rank = l.rank) : k = l := by
  cases k <;> cases l <;> first | rfl | exact absurd h (by decide)

end TokenKind

/-- At the front of a text, the rule for `k` takes `w`: it takes as much as it can, and no rule
before it takes anything. -/
structure Takes (cs : List Char) (k : TokenKind) (w : List Char) : Prop where
  /-- The text begins with what is taken. -/
  starts : w <+: cs
  /-- The rule allows that to be taken. -/
  allowed : k.Matches w
  /-- It could not take more. -/
  longest : ∀ v, v <+: cs → k.Matches v → v.length ≤ w.length
  /-- No earlier rule applies. -/
  first : ∀ l : TokenKind, l.rank < k.rank → ∀ v, v <+: cs → ¬l.Matches v

/-- Only one token can be taken at the front of a text. -/
theorem Takes.unique {cs w v : List Char} {k l : TokenKind} (h : Takes cs k w)
    (h' : Takes cs l v) : k = l ∧ w = v := by
  -- Of two rules the earlier one would have been tried first, and it applies.
  obtain rfl : k = l := by
    rcases Nat.lt_trichotomy k.rank l.rank with hlt | heq | hlt
    · exact absurd h.allowed (h'.first k hlt w h.starts)
    · exact TokenKind.rank_injective heq
    · exact absurd h'.allowed (h.first l hlt v h'.starts)
  have hlength : w.length = v.length :=
    Nat.le_antisymm (h'.longest w h.starts h.allowed) (h.longest v h'.starts h'.allowed)
  exact ⟨rfl, (List.prefix_of_prefix_length_le h.starts h'.starts hlength.le).eq_of_length hlength⟩

/-- The tokens of a text that begins at a place, taken one after another. -/
inductive Scans : Position → List Char → List Token → Prop
  /-- The text is at its end. -/
  | done (p : Position) : Scans p [] []
  /-- A token is taken, and the rest is scanned from the place after it. -/
  | step {p : Position} {k : TokenKind} {w rest : List Char} {ts : List Token}
      (htakes : Takes (w ++ rest) k w) (hrest : Scans (p.advance w) rest ts) :
      Scans p (w ++ rest) (⟨k, String.ofList w, p⟩ :: ts)

/-! ## Words -/

/-- A name ends before a character that does not continue it. -/
theorem IsNameRun.nameExtent_eq {name rest : List Char} (h : IsNameRun name)
    (hrest : ∀ c ∈ rest.head?, continuesName c = false) :
    nameExtent (name ++ rest) = name.length := by
  obtain ⟨c, run, rfl, hc, hrun⟩ := h
  rw [Token.nameExtent_append hrest, nameExtent, if_pos hc, List.takeWhile_eq_self_iff.2 hrun,
    List.length_cons, Nat.add_comm]

/-- The name at the front of a text is one. -/
theorem isNameRun_take {cs : List Char} (h : nameExtent cs ≠ 0) :
    IsNameRun (cs.take (nameExtent cs)) := by
  cases cs with
  | nil => exact absurd rfl h
  | cons c rest =>
    have hc : opensName c = true := by
      by_contra hc
      exact h (by simp [nameExtent, hc])
    rw [nameExtent, if_pos hc, Nat.add_comm, List.take_succ_cons, Text.take_length_takeWhile]
    exact ⟨c, _, rfl, hc, fun d hd => List.mem_takeWhile_imp hd⟩

/-- The name at the front of a text is as long as any that the text begins with. -/
theorem IsNameRun.length_le {name cs : List Char} (h : IsNameRun name) (hcs : name <+: cs) :
    name.length ≤ nameExtent cs := by
  obtain ⟨c, run, rfl, hc, hrun⟩ := h
  obtain ⟨rest, rfl⟩ := hcs
  rw [List.cons_append, nameExtent, if_pos hc, List.takeWhile_append_of_pos hrun,
    List.length_append, List.length_cons]
  omega

/-- A name is not empty. -/
theorem IsNameRun.length_pos {name : List Char} (h : IsNameRun name) : 0 < name.length := by
  obtain ⟨c, run, rfl, -, -⟩ := h
  exact Nat.succ_pos _

/-- A star opens no name. -/
theorem head?_ne_star {cs : List Char} (h : nameExtent cs ≠ 0) : cs.head? ≠ some '*' := by
  rintro hstar
  obtain ⟨rest, rfl⟩ := List.head?_eq_some_iff.1 hstar
  exact h (by simp [nameExtent, show opensName '*' = false by decide])

/-- The length of the dotted tail at the front, or zero. -/
def tailExtent (cs : List Char) : Nat :=
  if cs.head? = some '.' ∧ nameExtent cs.tail ≠ 0 then 1 + nameExtent cs.tail else 0

/-- A word is as long as its star, its name and its tail. -/
theorem wordExtent_eq {star cs : List Char} (hstar : star = [] ∨ star = ['*'])
    (hname : nameExtent cs ≠ 0) :
    wordExtent (star ++ cs) =
      star.length + (nameExtent cs + tailExtent (cs.drop (nameExtent cs))) := by
  rw [Token.wordExtent_star hstar (head?_ne_star hname) hname, tailExtent]
  split_ifs <;> simp_all
  omega

/-- The dotted tail at the front of a text. -/
theorem take_tailExtent (cs : List Char) : cs.take (tailExtent cs) = [] ∨
    ∃ member, cs.take (tailExtent cs) = '.' :: member ∧ IsNameRun member := by
  unfold tailExtent
  split_ifs with htail
  · obtain ⟨hdot, hmember⟩ := htail
    obtain ⟨rest, rfl⟩ := List.head?_eq_some_iff.1 hdot
    refine .inr ⟨_, ?_, isNameRun_take hmember⟩
    rw [Nat.add_comm, List.take_succ_cons, List.tail_cons]
  · exact .inl rfl

/-- A text with a word at its front begins with an optional star and a name. -/
theorem exists_of_wordExtent_ne_zero {cs : List Char} (h : wordExtent cs ≠ 0) :
    ∃ star rest, cs = star ++ rest ∧ (star = [] ∨ star = ['*']) ∧ nameExtent rest ≠ 0 := by
  by_cases hstar : cs.head? = some '*'
  · obtain ⟨rest, rfl⟩ := List.head?_eq_some_iff.1 hstar
    refine ⟨['*'], rest, rfl, .inr rfl, fun hzero => h ?_⟩
    simp [wordExtent, hzero]
  · refine ⟨[], cs, rfl, .inl rfl, fun hzero => h ?_⟩
    simp [wordExtent, hstar, hzero]

/-- The word at the front of a text is one. -/
theorem isWordText_take {cs : List Char} (h : wordExtent cs ≠ 0) :
    IsWordText (cs.take (wordExtent cs)) := by
  obtain ⟨star, rest, rfl, hstar, hname⟩ := exists_of_wordExtent_ne_zero h
  refine ⟨star, rest.take (nameExtent rest), (rest.drop (nameExtent rest)).take
    (tailExtent (rest.drop (nameExtent rest))), ?_, hstar, isNameRun_take hname,
    take_tailExtent _⟩
  rw [wordExtent_eq hstar hname, List.take_length_add_append, List.take_add]

/-- The word at the front of a text is as long as any that the text begins with. -/
theorem IsWordText.length_le {w cs : List Char} (h : IsWordText w) (hcs : w <+: cs) :
    w.length ≤ wordExtent cs := by
  obtain ⟨star, name, tail, rfl, hstar, hname, htail⟩ := h
  obtain ⟨rest, rfl⟩ := hcs
  rw [List.append_assoc, List.append_assoc]
  have hlength := hname.length_le (List.prefix_append name (tail ++ rest))
  have hpos := hname.length_pos
  rw [wordExtent_eq hstar (by omega), List.length_append, List.length_append]
  rcases htail with rfl | ⟨member, rfl, hmember⟩
  · rw [List.length_nil]
    omega
  · -- The name ends before the dot, so that the tail can be compared with the one at the front.
    have hextent : nameExtent (name ++ ('.' :: member ++ rest)) = name.length :=
      hname.nameExtent_eq (by simp; decide)
    have htail : 1 + member.length ≤ tailExtent ('.' :: (member ++ rest)) := by
      have hlength := hmember.length_le (List.prefix_append member rest)
      have hpos := hmember.length_pos
      rw [tailExtent, List.tail_cons, if_pos ⟨rfl, by omega⟩]
      omega
    rw [hextent, List.drop_left, List.cons_append, List.length_cons]
    omega

/-- A word is not empty. -/
theorem IsWordText.ne_nil {w : List Char} (h : IsWordText w) : w ≠ [] := by
  obtain ⟨star, name, tail, rfl, -, hname, -⟩ := h
  have hpos := hname.length_pos
  intro hnil
  have hlength := congrArg List.length hnil
  simp only [List.length_append, List.length_nil] at hlength
  omega

/-- No word stands at the front of a text without one. -/
theorem not_isWordText_of_wordExtent {w cs : List Char} (h : wordExtent cs = 0) (hw : w <+: cs) :
    ¬IsWordText w := by
  intro hword
  have hlength := hword.length_le hw
  rw [h, Nat.le_zero, List.length_eq_zero_iff] at hlength
  exact hword.ne_nil hlength

/-! ## The first token -/

/-- What a rule takes is not empty. -/
theorem TokenKind.Matches.ne_nil {k : TokenKind} {w : List Char} (h : k.Matches w) : w ≠ [] := by
  cases k with
  | word => exact IsWordText.ne_nil h
  | colon =>
    obtain rfl : w = [':'] := h
    simp
  | comma =>
    obtain rfl : w = [','] := h
    simp
  | spacing => exact h.1
  | other =>
    obtain ⟨c, -, rfl⟩ := h
    simp

/-- A rule that takes single characters takes the first one. -/
theorem takes_single {k : TokenKind} {c : Char} (rest : List Char) (hc : k.Matches [c])
    (hsingle : ∀ v, k.Matches v → v.length = 1)
    (hfirst : ∀ l : TokenKind, l.rank < k.rank → ∀ v, v <+: c :: rest → ¬l.Matches v) :
    Takes (c :: rest) k [c] where
  starts := ⟨rest, rfl⟩
  allowed := hc
  longest v _ hv := (hsingle v hv).le
  first := hfirst

/-- No separator stands at the front of a text that begins with another character. -/
theorem ne_of_starts {c d : Char} {rest v : List Char} (hc : c ≠ d) (hv : v <+: c :: rest) :
    v ≠ [d] := by
  rintro rfl
  exact hc (List.cons_prefix_cons.1 hv).1.symm

/-- No spacing stands at the front of a text that begins with something else. -/
theorem not_isGap_of_starts {c : Char} {rest v : List Char} (hc : ¬Text.isSpacing c = true)
    (hv : v <+: c :: rest) : ¬(v ≠ [] ∧ IsGap v) := by
  rintro ⟨hne, hgap⟩
  obtain ⟨d, v, rfl⟩ := List.exists_cons_of_ne_nil hne
  obtain rfl := (List.cons_prefix_cons.1 hv).1
  exact hc (hgap d List.mem_cons_self)

/-- A word is taken first of all. -/
theorem takes_word {cs : List Char} (h : wordExtent cs ≠ 0) :
    Takes cs .word (cs.take (wordExtent cs)) where
  starts := List.take_prefix _ _
  allowed := isWordText_take h
  longest v hv hword := by
    rw [List.length_take_of_le (Token.wordExtent_le cs)]
    exact hword.length_le hv
  first l hl := absurd hl (Nat.not_lt_zero _)

/-- A run of spacing is taken as a whole. -/
theorem takes_spacing {c : Char} {rest : List Char} (h : Text.isSpacing c = true)
    (hfirst : ∀ l : TokenKind, l.rank < TokenKind.spacing.rank →
      ∀ v, v <+: c :: rest → ¬l.Matches v) :
    Takes (c :: rest) .spacing (c :: rest.takeWhile Text.isSpacing) where
  starts := List.cons_prefix_cons.2 ⟨rfl, List.takeWhile_prefix _⟩
  allowed := by
    refine ⟨by simp, List.forall_mem_cons.2 ⟨h, fun d hd => List.mem_takeWhile_imp hd⟩⟩
  longest v hv hgap := by
    obtain ⟨after, hafter⟩ := hv
    rw [← List.takeWhile_cons_of_pos h, ← hafter, List.takeWhile_append_of_pos hgap.2,
      List.length_append]
    omega
  first := hfirst

/-- The token at the front of a text is the one that the rules take. -/
theorem takes_front (c : Char) (rest : List Char) :
    Takes (c :: rest) (front c rest).1 (c :: rest.take (front c rest).2) := by
  unfold front
  dsimp only
  by_cases hword : wordExtent (c :: rest) ≠ 0
  · obtain ⟨n, hn⟩ := Nat.exists_eq_succ_of_ne_zero hword
    rw [if_pos hword, hn, Nat.succ_sub_one]
    dsimp only
    rw [← List.take_succ_cons, ← Nat.succ_eq_add_one, ← hn]
    exact takes_word hword
  · -- From here on no word is ahead, and each rule comes after those that do not apply.
    have hnone := fun v hv => not_isWordText_of_wordExtent (w := v) (not_not.1 hword) hv
    rw [if_neg hword]
    by_cases hcolon : c = ':'
    · subst hcolon
      rw [if_pos rfl]
      refine takes_single rest rfl (fun v hv => congrArg List.length hv) fun l hl v hv => ?_
      cases l with
      | word => exact hnone v hv
      | _ => exact absurd hl (by decide)
    · rw [if_neg hcolon]
      by_cases hcomma : c = ','
      · subst hcomma
        rw [if_pos rfl]
        refine takes_single rest rfl (fun v hv => congrArg List.length hv) fun l hl v hv => ?_
        cases l with
        | word => exact hnone v hv
        | colon => exact ne_of_starts hcolon hv
        | _ => exact absurd hl (by decide)
      · rw [if_neg hcomma]
        by_cases hspacing : Text.isSpacing c = true
        · rw [if_pos hspacing, Text.take_length_takeWhile]
          refine takes_spacing hspacing fun l hl v hv => ?_
          cases l with
          | word => exact hnone v hv
          | colon => exact ne_of_starts hcolon hv
          | comma => exact ne_of_starts hcomma hv
          | _ => exact absurd hl (by decide)
        · -- A line break is spacing, so that the last rule takes what is left.
          rw [if_neg hspacing]
          have hbreak : c ≠ '\n' := by
            rintro rfl
            exact hspacing (by decide)
          refine takes_single rest ⟨c, hbreak, rfl⟩ ?_ fun l hl v hv => ?_
          · rintro v ⟨d, -, rfl⟩
            rfl
          · cases l with
            | word => exact hnone v hv
            | colon => exact ne_of_starts hcolon hv
            | comma => exact ne_of_starts hcomma hv
            | spacing => exact not_isGap_of_starts hspacing hv
            | other => exact absurd hl (by decide)

/-! ## All tokens -/

/-- The lexer scans every text. -/
theorem scans_lexFrom (p : Position) (cs : List Char) : Scans p cs (lexFrom p cs) := by
  fun_induction lexFrom p cs with
  | case1 p => exact .done p
  | case2 p c rest sort text ih =>
    have htakes := takes_front c rest
    have hsplit : c :: rest = text ++ rest.drop sort.2 := by
      rw [List.cons_append, List.take_append_drop]
    rw [hsplit] at htakes ⊢
    exact .step htakes ih

/-- The tokens that come about by the rules are those of the lexer. -/
theorem Scans.eq_lexFrom {p : Position} {cs : List Char} {ts : List Token} (h : Scans p cs ts) :
    ts = lexFrom p cs := by
  induction h with
  | done p => exact (Token.lexFrom_nil p).symm
  | @step p k w rest ts htakes _ ih =>
    -- The token that the rules take is the one at the front, so that the rest is the same too.
    obtain ⟨c, w, rfl⟩ := List.exists_cons_of_ne_nil htakes.allowed.ne_nil
    obtain ⟨hkind, htext⟩ := htakes.unique (takes_front c (w ++ rest))
    obtain ⟨-, htext⟩ := List.cons.inj htext
    have hlength : w.length = (front c (w ++ rest)).2 :=
      (congrArg List.length htext).trans (List.length_take_of_le (Token.front_le c _))
    rw [List.cons_append, Token.lexFrom_cons, ← hkind, ← htext, ← hlength, List.drop_left, ih]

/-- The rules lead to the tokens of the lexer, and to no others. -/
theorem scans_iff {p : Position} {cs : List Char} {ts : List Token} :
    Scans p cs ts ↔ ts = lexFrom p cs :=
  ⟨Scans.eq_lexFrom, fun h => h ▸ scans_lexFrom p cs⟩

/-- Each token is one that the rule for its sort allows. -/
theorem matches_of_mem_lexFrom {p : Position} {cs : List Char} {t : Token}
    (h : t ∈ lexFrom p cs) : t.kind.Matches t.text.toList := by
  fun_induction lexFrom p cs with
  | case1 => exact absurd h List.not_mem_nil
  | case2 p c rest sort text ih =>
    rcases List.mem_cons.1 h with rfl | h
    · rw [String.toList_ofList]
      exact (takes_front c rest).allowed
    · exact ih h

end NodeFamily
