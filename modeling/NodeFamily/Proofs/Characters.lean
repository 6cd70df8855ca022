import NodeFamily.Identifier
import NodeFamily.Token

/-!
# Characters of names

What the declaration grammar and the emitted language have in common, character by character. Both
open a name with the same characters, but a word of a declaration goes on with numerals of any kind
and an identifier only with decimal digits. `continuesName_of_continuesIdentifier` shows that the
narrow class lies in the wide one, so that an identifier is never cut in two. Spacing lies outside
of the wide class (`not_continuesName_of_isSpacing`), so that it always ends a name.
-/

namespace NodeFamily

namespace Text

/-- The code of a character that a code stands for. -/
theorem toNat_ofNat {n : Nat} (h : n.isValidChar) : (Char.ofNat n).toNat = n := by
  unfold Char.ofNat
  rw [dif_pos h]
  rfl

/-- A member of spans lies in one of them. -/
theorem exists_span_of_inSpans {spans : List (Nat × Nat)} {n : Nat}
    (h : inSpans spans n = true) : ∃ s ∈ spans, s.1 ≤ n ∧ n ≤ s.2 := by
  fun_induction inSpans spans n with
  | case1 => exact absurd h (by decide)
  | case2 => exact absurd h (by decide)
  | case3 lo hi rest n hlo hhi => exact ⟨(lo, hi), List.mem_cons_self, Nat.not_lt.1 hlo, hhi⟩
  | case4 lo hi rest n hlo hhi ih =>
    obtain ⟨s, hs, hn⟩ := ih h
    exact ⟨s, List.mem_cons_of_mem _ hs, hn⟩

/-- What lies in a span is a member, when the spans come in increasing order. -/
theorem inSpans_of_mem {spans : List (Nat × Nat)} (hsorted : spans.Pairwise (·.1 ≤ ·.1))
    {s : Nat × Nat} {n : Nat} (hs : s ∈ spans) (hlo : s.1 ≤ n) (hhi : n ≤ s.2) :
    inSpans spans n = true := by
  fun_induction inSpans spans n with
  | case1 => exact absurd hs List.not_mem_nil
  | case2 lo hi rest n hn =>
    rcases List.mem_cons.1 hs with rfl | hs
    · exact absurd hlo (Nat.not_le.2 hn)
    · -- The spans after the first one begin no earlier, so `n` lies before all of them.
      have := (List.pairwise_cons.1 hsorted).1 s hs
      simp only at this
      omega
  | case3 => rfl
  | case4 lo hi rest n _ hn ih =>
    rcases List.mem_cons.1 hs with rfl | hs
    · exact absurd hhi hn
    · exact ih (List.pairwise_cons.1 hsorted).2 hs hlo hhi

/-- A decimal digit is a numeral. -/
theorem isNumeral_of_isDigit {c : Char} (h : isDigit c = true) : isNumeral c = true := by
  obtain ⟨s, hs, hlo, hhi⟩ := exists_span_of_inSpans h
  have hsorted : numerals.spans.Pairwise (·.1 ≤ ·.1) := by decide +kernel
  -- A run of digits may be only part of a run of numerals, so it is the spans that are compared.
  have hcover : ∀ s ∈ digits.spans, ∃ b ∈ numerals.spans, b.1 ≤ s.1 ∧ s.2 ≤ b.2 := by
    decide +kernel
  obtain ⟨b, hb, hlo', hhi'⟩ := hcover s hs
  exact inSpans_of_mem hsorted hb (Nat.le_trans hlo' hlo) (Nat.le_trans hhi hhi')

end Text

open Token (opensName continuesName)

/-- What opens a name inside a word also continues one. -/
theorem continuesName_of_opensName {c : Char} (h : opensName c = true) :
    continuesName c = true := by
  rcases Bool.or_eq_true _ _ ▸ h with h | h <;> simp [continuesName, h]

/-- A character of an identifier continues a name inside a word. -/
theorem continuesName_of_continuesIdentifier {c : Char} (h : continuesIdentifier c = true) :
    continuesName c = true := by
  rcases Bool.or_eq_true _ _ ▸ h with h | h
  · exact continuesName_of_opensName h
  · simp [continuesName, Text.isNumeral_of_isDigit h]

/-- Spacing ends a name. -/
theorem not_continuesName_of_isSpacing {c : Char} (h : Text.isSpacing c = true) :
    continuesName c = false := by
  simp only [Text.isSpacing, Bool.or_eq_true, beq_iff_eq] at h
  rcases h with (((rfl | rfl) | rfl) | rfl) | rfl <;> decide

end NodeFamily
