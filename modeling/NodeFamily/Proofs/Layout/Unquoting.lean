import NodeFamily.Layout.ImportOrder
import NodeFamily.Proofs.Layout.Quoting

/-!
# Quoted texts are read back

What the sorting of imports reads from a quoted path is the path that was quoted
(`unquote?_quote`). Each escape gives back the character that it was written for
(`unescape?_of_escapeChar`), and every other character stands for itself. So different texts are
quoted differently (`quote_injective`).
-/

namespace NodeFamily.Layout

open Text (hexDigits escapeChar escapeWithin controlLetter? quote)

/-- The digits of a character are read back. -/
theorem unescape?_hexDigits {l : Char} {width : Nat}
    (hl : (l, width) ∈ [('x', 2), ('u', 4), ('U', 8)]) {c : Char} (h : c.toNat < 16 ^ width)
    (rest : List Char) : unescape? (l :: hexDigits width c.toNat ++ rest) = some (c, rest) := by
  have hdrop : (hexDigits width c.toNat ++ rest).drop width = rest :=
    List.drop_left' (length_hexDigits width c.toNat)
  have hread : ((digitsValue? 16 width (hexDigits width c.toNat ++ rest)).map fun n =>
      (Char.ofNat n, (hexDigits width c.toNat ++ rest).drop width)) = some (c, rest) := by
    rw [digitsValue?_hexDigits h, Option.map_some, hdrop, Char.ofNat_toNat]
  simp only [List.mem_cons, Prod.mk.injEq, List.not_mem_nil, or_false] at hl
  rcases hl with ⟨rfl, rfl⟩ | ⟨rfl, rfl⟩ | ⟨rfl, rfl⟩ <;> exact hread

/-- The escape of a character gives it back, whatever follows it. -/
theorem unescape?_of_escapeChar {c : Char} {l : List Char} (h : escapeChar c = '\\' :: l)
    (rest : List Char) : unescape? (l ++ rest) = some (c, rest) := by
  unfold escapeChar escapeWithin at h
  by_cases hmark : c = '"' ∨ c = '\\'
  · rw [if_pos hmark] at h
    obtain rfl := (List.cons.inj h).2
    rcases hmark with rfl | rfl <;> rfl
  rw [if_neg hmark] at h
  by_cases hprintable : Text.isPrintable c = true
  · rw [if_pos hprintable] at h
    exact absurd (List.cons.inj h).1 (not_or.1 hmark).2
  rw [if_neg hprintable] at h
  split at h
  · next letter hletter =>
    obtain rfl := (List.cons.inj h).2
    unfold controlLetter? at hletter
    split_ifs at hletter with hc hc hc hc hc hc hc
    all_goals
      obtain rfl := Option.some.inj hletter
      subst hc
      rfl
  · split at h
    · obtain rfl := (List.cons.inj h).2
      exact unescape?_hexDigits (by simp) (by omega) rest
    · split at h
      · next hfour =>
        obtain rfl := (List.cons.inj h).2
        exact unescape?_hexDigits (by simp) hfour rest
      · obtain rfl := (List.cons.inj h).2
        exact unescape?_hexDigits (by simp) (toNat_lt c) rest

/-- What is written for a text is read back to the text. -/
theorem unescapeAll?_flatMap {cs : List Char} {fuel : Nat} (h : cs.length < fuel) :
    unescapeAll? fuel (cs.flatMap escapeChar) = some cs := by
  induction cs generalizing fuel with
  | nil =>
    cases fuel with
    | zero => exact absurd h (Nat.not_lt_zero _)
    | succ fuel => rfl
  | cons c cs ih =>
    cases fuel with
    | zero => exact absurd h (Nat.not_lt_zero _)
    | succ fuel =>
      have hrest := ih (Nat.lt_of_succ_lt_succ h)
      rw [List.flatMap_cons]
      rcases escapeChar_cases c with ⟨hc, -, -, hslash⟩ | ⟨l, hc, -⟩
      · rw [hc, List.singleton_append]
        simp [unescapeAll?, hrest]
      · rw [hc, List.cons_append]
        simp [unescapeAll?, unescape?_of_escapeChar hc, hrest]

/-- A quoted text is read back. -/
theorem unquote?_quote (t : String) : unquote? (quote t) = some t.toList := by
  have hlength := length_le_flatMap_escapeChar t.toList
  have hread : unescapeAll? ((t.toList.flatMap escapeChar ++ ['"']).length + 1)
      (t.toList.flatMap escapeChar ++ ['"']).dropLast = some t.toList := by
    rw [List.dropLast_concat]
    exact unescapeAll?_flatMap (by simp only [List.length_append]; omega)
  unfold unquote?
  rw [toList_quote]
  exact hread

/-- Different texts are quoted differently. -/
theorem quote_injective : Function.Injective quote := by
  intro s t h
  have hread : some s.toList = some t.toList := by rw [← unquote?_quote, ← unquote?_quote, h]
  exact String.toList_inj.1 (Option.some.inj hread)

end NodeFamily.Layout
