import Mathlib.Data.List.Chain
import Mathlib.Data.List.TakeWhile
import NodeFamily.Proofs.Characters
import NodeFamily.Proofs.Layout.Scanning
import NodeFamily.SchemaCheck

/-!
# What title case makes of a name

A name in title case need not be an identifier: some small letters have a title form of several
characters, and a mark after the first one continues no identifier. `titleWords_cases` shows that
nothing worse can happen. The title form of a name is an identifier, or it is one up to a character
outside of ASCII that stands in no identifier.

The tables of title forms and of letters are compared run by run (`shifts_into_letters`). What
follows from them is about any text.
-/

namespace NodeFamily

open Text (CaseShift titleShifts titleSequences titleChar titleFrom titleWords Boundary letters
  digits inSpans exists_span_of_inSpans inSpans_of_mem)

/-- Whether a character opens an identifier that is no keyword, whatever follows it. -/
def opensTitle (c : Char) : Bool := opensIdentifier c && !c.isLower

/-- A character that continues an identifier or lies outside of ASCII. -/
def CanFollow (c : Char) : Prop := continuesIdentifier c = true ∨ 128 ≤ c.toNat

/-! ## The tables -/

/-- Whether one span holds all numbers from `lo` to `hi`. -/
def holdsRun (spans : List (Nat × Nat)) (lo hi : Nat) : Bool :=
  spans.any fun b => b.1.ble lo && hi.ble b.2

/-- Whether no span holds any number from `lo` to `hi`. -/
def missesRun (spans : List (Nat × Nat)) (lo hi : Nat) : Bool :=
  spans.all fun b => hi.blt b.1 || b.2.blt lo

/-- The spans of letters come in increasing order, and all numbers in them are codes. -/
theorem letters_spans : letters.spans.IsChain (·.1 ≤ ·.1) ∧
    ∀ b ∈ letters.spans, b.2 < 0xD800 ∨ (0xDFFF < b.1 ∧ b.2 < 0x110000) := by
  decide +kernel

/-- No shift moves an underscore, and none goes to a small letter of ASCII. Each run of a shift goes
to letters, as one run or letter by letter, unless nothing in it continues an identifier. -/
theorem shifts_into_letters : ∀ s ∈ titleShifts,
    (96 < s.lo ∧ 0 < s.step ∧ 0 ≤ s.lo + s.delta ∧
        (s.hi + s.delta < 97 ∨ 122 < s.lo + s.delta)) ∧
      (holdsRun letters.spans (s.lo + s.delta).toNat (s.hi + s.delta).toNat = true ∨
        missesRun (letters.spans ++ digits.spans) s.lo s.hi = true ∨
        ∀ k < (s.hi - s.lo) / s.step + 1,
          let n := ((s.lo + k * s.step : Nat) + s.delta).toNat
          holdsRun letters.spans n n = true) := by
  decide +kernel

/-- A title form of several characters opens an identifier, and what stands in it either continues
that or lies outside of ASCII. -/
theorem sequences_open : ∀ entry ∈ titleSequences,
    entry.2.head?.any (fun n => opensTitle (Char.ofNat n)) = true ∧
      ∀ n ∈ entry.2, continuesIdentifier (Char.ofNat n) = true ∨ 128 ≤ (Char.ofNat n).toNat := by
  decide +kernel

/-- The small letters of ASCII are cased, and their title form is none of them. -/
theorem lower_titles : ∀ n < 123, 97 ≤ n → Boundary.of (Char.ofNat n) = .cased ∧
    (titleChar (Char.ofNat n)).head?.any opensTitle = true := by
  decide +kernel

/-! ## Characters -/

/-- The small letters of ASCII by their codes. -/
theorem isLower_iff {c : Char} : c.isLower = true ↔ 97 ≤ c.toNat ∧ c.toNat ≤ 122 := by
  change (decide ('a'.val ≤ c.val) && decide (c.val ≤ 'z'.val)) = true ↔ _
  rw [Bool.and_eq_true, decide_eq_true_eq, decide_eq_true_eq]
  exact Iff.rfl

/-- A run that one span of letters holds consists of letters. -/
theorem letter_of_holdsRun {lo hi n : Nat} (h : holdsRun letters.spans lo hi = true) (hlo : lo ≤ n)
    (hhi : n ≤ hi) : Text.isLetter (Char.ofNat n) = true ∧ (Char.ofNat n).toNat = n := by
  obtain ⟨b, hb, hrun⟩ := List.any_eq_true.1 h
  simp only [Bool.and_eq_true, Nat.ble_eq] at hrun
  obtain ⟨hchain, hvalid⟩ := letters_spans
  have htrans : IsTrans (Nat × Nat) (·.1 ≤ ·.1) := ⟨fun _ _ _ => Nat.le_trans⟩
  have hchar : n.isValidChar := (hvalid b hb).imp (by omega) (by omega)
  have hcode := Text.toNat_ofNat hchar
  refine ⟨?_, hcode⟩
  unfold Text.isLetter Text.CodeSet.contains
  rw [hcode]
  exact inSpans_of_mem (List.isChain_iff_pairwise.1 hchain) hb (by omega) (by omega)

/-- What lies in a run that the spans miss is no member. -/
theorem not_inSpans_of_missesRun {spans : List (Nat × Nat)} {lo hi n : Nat}
    (h : missesRun spans lo hi = true) (hlo : lo ≤ n) (hhi : n ≤ hi) : inSpans spans n = false := by
  by_contra hmem
  obtain ⟨b, hb, hle, hge⟩ := exists_span_of_inSpans (eq_true_of_ne_false hmem)
  have hmiss := List.all_eq_true.1 h b hb
  simp only [Bool.or_eq_true, Nat.blt_eq] at hmiss
  omega

/-- A shifted character is left alone, or some run that holds it moves it. -/
theorem apply_cases (shifts : List CaseShift) (c : Char) :
    CaseShift.apply shifts c = c ∨ ∃ s ∈ shifts, s.lo ≤ c.toNat ∧ c.toNat ≤ s.hi ∧
      (c.toNat - s.lo) % s.step = 0 ∧
      CaseShift.apply shifts c = Char.ofNat (c.toNat + s.delta).toNat := by
  induction shifts with
  | nil => exact .inl rfl
  | cons s shifts ih =>
    rw [CaseShift.apply]
    split_ifs with hlo hhi hstep
    · exact .inl rfl
    · exact .inr ⟨s, List.mem_cons_self, Nat.not_lt.1 hlo, hhi, hstep, rfl⟩
    · exact .inl rfl
    · refine ih.imp id ?_
      rintro ⟨s', hs', hrun⟩
      exact ⟨s', List.mem_cons_of_mem s hs', hrun⟩

/-- What shifting a character of an identifier moves opens a title. -/
theorem opensTitle_apply {c : Char} (hc : continuesIdentifier c = true) :
    CaseShift.apply titleShifts c = c ∨ opensTitle (CaseShift.apply titleShifts c) = true := by
  refine (apply_cases titleShifts c).imp id ?_
  rintro ⟨s, hs, hlo, hhi, hstep, himage⟩
  obtain ⟨⟨hunderscore, hpos, hnonneg, hrange⟩, himages⟩ := shifts_into_letters s hs
  have hcode : ((c.toNat : Int) + s.delta).toNat = c.toNat + s.delta := by omega
  -- The image is a letter by one of the three ways that the tables leave.
  obtain ⟨hletter, hnat⟩ : Text.isLetter (Char.ofNat (c.toNat + s.delta).toNat) = true ∧
      (Char.ofNat (c.toNat + s.delta).toNat).toNat = (c.toNat + s.delta).toNat := by
    rcases himages with hrun | hmiss | hsingle
    · exact letter_of_holdsRun hrun (by omega) (by omega)
    · rw [missesRun, List.all_append, Bool.and_eq_true] at hmiss
      have hnotLetter : Text.isLetter c = false := not_inSpans_of_missesRun hmiss.1 hlo hhi
      have hnotDigit : Text.isDigit c = false := not_inSpans_of_missesRun hmiss.2 hlo hhi
      have hother : c ≠ '_' := by
        rintro rfl
        exact absurd hlo (by have : '_'.toNat = 95 := rfl; omega)
      simp [continuesIdentifier, opensIdentifier, hnotLetter, hnotDigit, hother] at hc
    · have hk : s.lo + (c.toNat - s.lo) / s.step * s.step = c.toNat := by
        have hdiv := Nat.div_add_mod' (c.toNat - s.lo) s.step
        omega
      have hlt : (c.toNat - s.lo) / s.step < (s.hi - s.lo) / s.step + 1 :=
        Nat.lt_succ_of_le (Nat.div_le_div_right (by omega))
      have hrun := hsingle _ hlt
      dsimp only at hrun
      rw [hk] at hrun
      exact letter_of_holdsRun hrun (Nat.le_refl _) (Nat.le_refl _)
  have hlower : (Char.ofNat (c.toNat + s.delta).toNat).isLower = false := by
    rw [Bool.eq_false_iff, ne_eq, isLower_iff, hnat]
    omega
  rw [himage, opensTitle, opensIdentifier, hletter, hlower]
  rfl

/-- The title form of a character of an identifier: its first character is the character itself or
opens a title, and the others can follow. -/
theorem titleChar_of_continues {c : Char} (hc : continuesIdentifier c = true) :
    ∃ d rest, titleChar c = d :: rest ∧ (d = c ∨ opensTitle d = true) ∧
      ∀ e ∈ rest, CanFollow e := by
  unfold titleChar
  split
  · next form hform =>
    obtain ⟨l₁, l₂, hl, -⟩ := List.lookup_eq_some_iff.1 hform
    obtain ⟨hopens, hfollow⟩ := sequences_open (c.toNat, form) (by rw [hl]; simp)
    cases form with
    | nil => exact absurd hopens Bool.false_ne_true
    | cons n ns =>
      refine ⟨Char.ofNat n, ns.map Char.ofNat, rfl, .inr hopens, fun e he => ?_⟩
      obtain ⟨m, hm, rfl⟩ := List.mem_map.1 he
      exact hfollow m (List.mem_cons_of_mem n hm)
  · exact ⟨_, [], rfl, opensTitle_apply hc, by simp⟩

/-- What opens a title continues an identifier. -/
theorem canFollow_of_opensTitle {c : Char} (h : opensTitle c = true) : CanFollow c := by
  refine .inl ?_
  rw [continuesIdentifier, (Bool.and_eq_true_iff.1 h).1, Bool.true_or]

/-- What opens an identifier opens one that is no keyword once it is in title case. -/
theorem opensTitle_titleFrom {c : Char} (hc : opensIdentifier c = true) (rest : List Char) :
    ∃ d out, titleFrom false false (c :: rest) = d :: out ∧ opensTitle d = true := by
  by_cases hlower : c.isLower = true
  · obtain ⟨hfirst, hlast⟩ := isLower_iff.1 hlower
    obtain ⟨hcased, htitle⟩ := lower_titles c.toNat (Nat.lt_succ_of_le hlast) hfirst
    rw [Char.ofNat_toNat] at hcased htitle
    obtain ⟨d, hd, hopens⟩ := (Option.any_eq_true _ _).1 htitle
    obtain ⟨out, hout⟩ := List.head?_eq_some_iff.1 hd
    refine ⟨d, out ++ titleFrom true false rest, ?_, hopens⟩
    simp [titleFrom, hcased, hout]
  · have hopens : opensTitle c = true := by
      rw [opensTitle, hc, Bool.eq_false_iff.2 hlower]
      rfl
    have hcont : continuesIdentifier c = true := by rw [continuesIdentifier, hc, Bool.true_or]
    obtain ⟨d, out, htitle, hd, -⟩ := titleChar_of_continues hcont
    cases hclass : Boundary.of c with
    | cased =>
      refine ⟨d, out ++ titleFrom true false rest, by simp [titleFrom, hclass, htitle], ?_⟩
      rcases hd with rfl | hd
      · exact hopens
      · exact hd
    | joins => exact ⟨c, _, by rw [titleFrom, hclass], hopens⟩
    | mid => exact ⟨c, _, by rw [titleFrom, hclass], hopens⟩
    | breaks => exact ⟨c, _, by rw [titleFrom, hclass], hopens⟩

/-- What holds of the characters of a text and of their title forms holds of every character of the
text in title case. -/
theorem forall_mem_titleFrom {p : Char → Prop} {cs : List Char}
    (h : ∀ c ∈ cs, p c ∧ ∀ d ∈ titleChar c, p d) (inWord afterMid : Bool) :
    ∀ d ∈ titleFrom inWord afterMid cs, p d := by
  induction cs generalizing inWord afterMid with
  | nil => simp [titleFrom]
  | cons c cs ih =>
    rw [List.forall_mem_cons] at h
    obtain ⟨hself, htitle⟩ := h.1
    rw [titleFrom]
    split
    · refine List.forall_mem_append.2 ⟨?_, ih h.2 _ _⟩
      split_ifs
      · exact List.forall_mem_singleton.2 hself
      · exact htitle
    all_goals exact List.forall_mem_cons.2 ⟨hself, ih h.2 _ _⟩

/-- Every character of an identifier in title case continues an identifier or lies outside of
ASCII. -/
theorem canFollow_titleFrom {cs : List Char} (hcs : ∀ c ∈ cs, continuesIdentifier c = true)
    (inWord afterMid : Bool) : ∀ d ∈ titleFrom inWord afterMid cs, CanFollow d := by
  refine forall_mem_titleFrom (fun c hc => ⟨.inl (hcs c hc), ?_⟩) inWord afterMid
  obtain ⟨d, out, htitle, hd, hout⟩ := titleChar_of_continues (hcs c hc)
  rw [htitle]
  refine List.forall_mem_cons.2 ⟨?_, hout⟩
  rcases hd with rfl | hd
  · exact .inl (hcs d hc)
  · exact canFollow_of_opensTitle hd

/-! ## Names -/

/-- What opens a title and goes on like an identifier is an identifier, since every keyword begins
with a small letter. -/
theorem isIdentifier_of_opensTitle {d : Char} (hd : opensTitle d = true) {cs : List Char}
    (hcs : ∀ c ∈ cs, continuesIdentifier c = true) :
    isIdentifier (String.ofList (d :: cs)) = true := by
  obtain ⟨hopens, hlower⟩ := Bool.and_eq_true_iff.1 hd
  have hkeywords : ∀ k ∈ keywords, k.toList.head?.any Char.isLower = true := by decide
  have hnot : keywords.contains (String.ofList (d :: cs)) = false := by
    rw [List.contains_eq_mem, decide_eq_false_iff_not]
    intro hmem
    have hsmall := hkeywords _ hmem
    rw [String.toList_ofList, List.head?_cons, Option.any_some] at hsmall
    rw [hsmall] at hlower
    exact absurd hlower Bool.false_ne_true
  unfold isIdentifier
  rw [hnot, String.toList_ofList]
  simpa [hasIdentifierShape, hopens] using hcs

/-- The title form of a name is an identifier, or one up to a character outside of ASCII that stands
in no identifier. -/
theorem titleWords_cases {n : String} (h : isName n = true) :
    isIdentifier (titleWords n) = true ∨ ∃ w c rest, (titleWords n).toList = w.toList ++ c :: rest ∧
      isIdentifier w = true ∧ continuesIdentifier c = false ∧ 128 ≤ c.toNat := by
  have hshape : hasIdentifierShape n.toList = true :=
    (Bool.and_eq_true_iff.1 (Bool.and_eq_true_iff.1 h).1).1
  obtain ⟨c, rest, hn, hopens, hall⟩ := Layout.exists_of_hasIdentifierShape hshape
  obtain ⟨d, out, htitle, hd⟩ := opensTitle_titleFrom hopens rest
  rw [← hn] at htitle
  have hfollow := canFollow_titleFrom hall false false
  rw [htitle, List.forall_mem_cons] at hfollow
  have hprefix : ∀ c ∈ out.takeWhile continuesIdentifier, continuesIdentifier c = true :=
    fun c hc => List.mem_takeWhile_imp hc
  -- The title form is cut at its first character that continues no identifier.
  have hsplit := List.takeWhile_append_dropWhile (p := continuesIdentifier) (l := out)
  cases hdrop : out.dropWhile continuesIdentifier with
  | nil =>
    refine .inl ?_
    rw [hdrop, List.append_nil] at hsplit
    rw [titleWords, htitle, ← hsplit]
    exact isIdentifier_of_opensTitle hd hprefix
  | cons c rest =>
    have hstop : continuesIdentifier c = false := by
      have hhead := List.head?_dropWhile_not continuesIdentifier out
      rw [hdrop] at hhead
      simpa using hhead
    have hmem : c ∈ out := by
      rw [← hsplit, hdrop]
      simp
    refine .inr ⟨String.ofList (d :: out.takeWhile continuesIdentifier), c, rest, ?_,
      isIdentifier_of_opensTitle hd hprefix, hstop,
      (hfollow.2 c hmem).resolve_left (by simp [hstop])⟩
    rw [titleWords, String.toList_ofList, String.toList_ofList, htitle, List.cons_append, ← hdrop,
      hsplit]

/-- A small letter whose title form has a mark that no identifier holds. -/
example : (titleWords "ǰ").toList = ['J', '\u030c'] := by rfl

end NodeFamily
