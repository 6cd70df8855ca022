import Mathlib.Data.List.TakeWhile
import NodeFamily.Text.Cut

/-!
# Pieces of texts

How a text is made of the pieces that `Text.cutAt` cuts it into: with the separator between them
they follow one another to the text (`intercalate_cutAt`), and none of them has the separator in it
(`not_mem_of_mem_cutAt`). Conversely a piece without the separator is found again
(`cutAt_append_cons`). Numbers are pieces as well: they are written with digits only
(`isDigit_of_mem_toString`), each in its own way (`toString_injective`).
-/

namespace NodeFamily.Text

/-- The characters that satisfy `p` go no further than one that does not. -/
theorem takeWhile_append_stop {p : Char → Bool} {c : Char} (h : p c = false)
    (xs rest : List Char) : (xs ++ c :: rest).takeWhile p = xs.takeWhile p := by
  induction xs with
  | nil => simp [h]
  | cons x xs ih => simp only [List.cons_append, List.takeWhile_cons, ih]

/-- What is left after the characters that satisfy `p`. -/
theorem drop_length_takeWhile (p : Char → Bool) (cs : List Char) :
    cs.drop (cs.takeWhile p).length = cs.dropWhile p := by
  calc cs.drop (cs.takeWhile p).length
      = (cs.takeWhile p ++ cs.dropWhile p).drop (cs.takeWhile p).length := by
        rw [List.takeWhile_append_dropWhile]
    _ = cs.dropWhile p := List.drop_left

/-- The characters at the front that satisfy `p`, taken by their number. -/
theorem take_length_takeWhile (p : Char → Bool) (cs : List Char) :
    cs.take (cs.takeWhile p).length = cs.takeWhile p :=
  (List.prefix_iff_eq_take.1 (List.takeWhile_prefix p)).symm

/-- A text without the separator is one piece. -/
theorem cutAt_of_not_mem {sep : Char} {cs : List Char} (h : sep ∉ cs) : cutAt sep cs = [cs] := by
  induction cs with
  | nil => rfl
  | cons c cs ih =>
    have hc : c ≠ sep := fun hc => h (hc ▸ List.mem_cons_self)
    have hcs : sep ∉ cs := fun hm => h (List.mem_cons_of_mem c hm)
    rw [cutAt, if_neg hc, ih hcs]

/-- What stands before the first separator is the first piece. -/
theorem cutAt_append_cons {sep : Char} {xs : List Char} (h : sep ∉ xs) (rest : List Char) :
    cutAt sep (xs ++ sep :: rest) = xs :: cutAt sep rest := by
  induction xs with
  | nil => rw [List.nil_append, cutAt, if_pos rfl]
  | cons x xs ih =>
    have hx : x ≠ sep := fun hx => h (hx ▸ List.mem_cons_self)
    have hxs : sep ∉ xs := fun hm => h (List.mem_cons_of_mem x hm)
    rw [List.cons_append, cutAt, if_neg hx, ih hxs]

/-- No piece has the separator in it. -/
theorem not_mem_of_mem_cutAt {sep : Char} {cs piece : List Char} (h : piece ∈ cutAt sep cs) :
    sep ∉ piece := by
  induction cs generalizing piece with
  | nil =>
    obtain rfl : piece = [] := by simpa [cutAt] using h
    exact List.not_mem_nil
  | cons c cs ih =>
    rw [cutAt] at h
    split_ifs at h with hc
    · rcases List.mem_cons.1 h with rfl | h
      · exact List.not_mem_nil
      · exact ih h
    · -- The first piece grows by `c`, which is not the separator, and the others stay.
      cases hcut : cutAt sep cs with
      | nil => exact absurd hcut (cutAt_ne_nil sep cs)
      | cons first pieces =>
        rw [hcut] at h ih
        rcases List.mem_cons.1 h with rfl | h
        · intro hm
          rcases List.mem_cons.1 hm with rfl | hm
          · exact hc rfl
          · exact ih List.mem_cons_self hm
        · exact ih (List.mem_cons_of_mem first h)

/-- The pieces with the separator between them are the text. -/
theorem intercalate_cutAt (sep : Char) (cs : List Char) :
    [sep].intercalate (cutAt sep cs) = cs := by
  induction cs with
  | nil => rfl
  | cons c cs ih =>
    rw [cutAt]
    cases hcut : cutAt sep cs with
    | nil => exact absurd hcut (cutAt_ne_nil sep cs)
    | cons piece pieces =>
      rw [hcut] at ih
      split_ifs with hc
      · rw [List.intercalate_cons_cons, ih, hc]
        rfl
      · cases pieces <;> simp_all [List.intercalate]

/-- Pieces without the separator are found again in the text that they make with it. -/
theorem cutAt_intercalate {sep : Char} {pieces : List (List Char)} (hne : pieces ≠ [])
    (h : ∀ piece ∈ pieces, sep ∉ piece) : cutAt sep ([sep].intercalate pieces) = pieces := by
  induction pieces with
  | nil => exact absurd rfl hne
  | cons piece pieces ih =>
    have hpiece : sep ∉ piece := h piece List.mem_cons_self
    cases pieces with
    | nil => rw [List.intercalate_singleton, cutAt_of_not_mem hpiece]
    | cons next pieces =>
      rw [List.intercalate_cons_cons, List.append_assoc, List.singleton_append,
        cutAt_append_cons hpiece, ih (by simp) fun q hq => h q (List.mem_cons_of_mem piece hq)]

/-- The pieces are those of splitting the list of characters. -/
theorem cutAt_eq_splitOn (sep : Char) (cs : List Char) : cutAt sep cs = cs.splitOn sep := by
  have hpieces := List.splitOn_intercalate sep (fun _ hp => not_mem_of_mem_cutAt hp)
    (cutAt_ne_nil sep cs)
  rw [intercalate_cutAt] at hpieces
  exact hpieces.symm

/-- The lines of a text: what stands between its line feeds. -/
def linesBetween (s : String) : List String := (s.toList.splitOn '\n').map String.ofList

/-- The lines are the pieces between line feeds. -/
theorem map_toList_linesBetween (s : String) :
    (linesBetween s).map String.toList = cutAt '\n' s.toList := by
  rw [cutAt_eq_splitOn, linesBetween, List.map_map]
  simp [Function.comp_def]

/-- Lines are found again in the text that they make with line feeds between them. -/
theorem linesBetween_intercalate {lines : List String} (hne : lines ≠ [])
    (h : ∀ line ∈ lines, '\n' ∉ line.toList) : linesBetween ("\n".intercalate lines) = lines := by
  have hmap : (linesBetween ("\n".intercalate lines)).map String.toList =
      lines.map String.toList := by
    rw [map_toList_linesBetween, String.toList_intercalate]
    exact cutAt_intercalate (by simpa using hne) (List.forall_mem_map.2 h)
  exact (List.map_inj_right fun _ _ => String.toList_inj.1).1 hmap

/-- A number is written with decimal digits. -/
theorem isDigit_of_mem_toString {n : Nat} {c : Char} (h : c ∈ (toString n).toList) :
    c.isDigit = true := by
  rw [Nat.toString_eq_repr, Nat.toList_repr] at h
  exact Nat.isDigit_of_mem_toDigits (by decide) (by decide) h

/-- Different numbers are written differently. -/
theorem toString_injective : Function.Injective (toString : Nat → String) := by
  intro m n h
  have hdigits : Nat.toDigits 10 m = Nat.toDigits 10 n := by
    rw [← Nat.toList_repr, ← Nat.toList_repr, ← Nat.toString_eq_repr, ← Nat.toString_eq_repr, h]
  rw [← Nat.ofDigitChars_ten_toDigits (n := m), hdigits, Nat.ofDigitChars_ten_toDigits]

end NodeFamily.Text
