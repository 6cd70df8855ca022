import NodeFamily.Emission.Preamble
import Mathlib.Data.List.Dedup
import Mathlib.Order.Basic

/-!
# Import paths

The paths of an import block are the imports that are not empty (`mem_importPaths`), in strictly
ascending order (`pairwise_importPaths`). A strictly ascending list is determined by its elements
(`eq_of_ascending`), so that the block depends on the set of paths only (`importPaths_congr`), and
the paths of a draft in ascending order are those of the block (`mergeSort_draftPaths`).
-/

namespace NodeFamily

/-- Ascending lists with the same elements are the same. -/
theorem eq_of_ascending {ps qs : List String} (hps : ps.Pairwise (· < ·))
    (hqs : qs.Pairwise (· < ·)) (h : ∀ p, p ∈ ps ↔ p ∈ qs) : ps = qs := by
  have hne : ∀ {p q : String}, p < q → p ≠ q := fun hlt heq => String.lt_irrefl _ (heq ▸ hlt)
  refine List.Perm.eq_of_pairwise (fun p q _ _ hlt hgt => ?_) hps hqs ?_
  · exact absurd hgt (String.lt_asymm hlt)
  · exact (List.perm_ext_iff_of_nodup (hps.imp hne) (hqs.imp hne)).2 h

namespace Emission

/-- The paths of a sorted list with one more. -/
theorem mem_insertPath {p q : String} {paths : List String} :
    q ∈ insertPath p paths ↔ q = p ∨ q ∈ paths := by
  induction paths with
  | nil => simp [insertPath]
  | cons first rest ih =>
    rw [insertPath]
    split_ifs with hlt heq
    · simp
    · simp [heq]
    · rw [List.mem_cons, ih, List.mem_cons]
      tauto

/-- The paths of an import block are the imports that are not empty. -/
theorem mem_importPaths {p : String} {imports : List String} :
    p ∈ importPaths imports ↔ p ∈ imports ∧ p ≠ "" := by
  have hfold : ∀ paths : List String, p ∈ paths.foldr insertPath [] ↔ p ∈ paths := by
    intro paths
    induction paths with
    | nil => simp
    | cons q paths ih => rw [List.foldr_cons, mem_insertPath, ih, List.mem_cons]
  rw [importPaths, hfold, List.mem_filter, decide_eq_true_eq]

/-- An ascending list stays ascending with one more path. -/
theorem pairwise_insertPath {p : String} {paths : List String} (h : paths.Pairwise (· < ·)) :
    (insertPath p paths).Pairwise (· < ·) := by
  induction paths with
  | nil => simp [insertPath]
  | cons q rest ih =>
    obtain ⟨hfirst, hrest⟩ := List.pairwise_cons.1 h
    rw [insertPath]
    split_ifs with hlt heq
    · refine List.pairwise_cons.2 ⟨List.forall_mem_cons.2 ⟨hlt, fun r hr => ?_⟩, h⟩
      exact String.lt_trans hlt (hfirst r hr)
    · exact h
    · -- The path goes somewhere into the rest, and the first one is less than it.
      refine List.pairwise_cons.2 ⟨fun r hr => ?_, ih hrest⟩
      rcases mem_insertPath.1 hr with rfl | hr
      · exact Std.lt_of_le_of_ne (String.not_lt.1 hlt) (Ne.symm heq)
      · exact hfirst r hr

/-- The paths of an import block ascend. -/
theorem pairwise_importPaths (imports : List String) :
    (importPaths imports).Pairwise (· < ·) := by
  unfold importPaths
  induction imports.filter (· ≠ "") with
  | nil => exact .nil
  | cons p paths ih => exact pairwise_insertPath ih

/-- The paths of an import block depend on the set of imports only. -/
theorem importPaths_congr {imports₁ imports₂ : List String}
    (h : ∀ p, p ≠ "" → (p ∈ imports₁ ↔ p ∈ imports₂)) :
    importPaths imports₁ = importPaths imports₂ := by
  refine eq_of_ascending (pairwise_importPaths _) (pairwise_importPaths _) fun p => ?_
  rw [mem_importPaths, mem_importPaths]
  exact and_congr_left fun hp => h p hp

/-- What is left of a list without repetitions is all different. -/
theorem nodup_eraseDups (paths : List String) : paths.eraseDups.Nodup := by
  induction h : paths.length using Nat.strongRecOn generalizing paths with
  | ind n ih =>
    cases paths with
    | nil => simp
    | cons p rest =>
      -- The rest of the paths is searched without the first one, and so are its repetitions.
      have hlt : (rest.filter fun q => !q == p).length < n := by
        have := List.length_filter_le (fun q => !q == p) rest
        simp only [List.length_cons] at h
        omega
      rw [List.eraseDups_cons, List.nodup_cons, List.mem_eraseDups]
      exact ⟨by simp, ih _ hlt _ rfl⟩

/-- The paths of a draft are all different. -/
theorem nodup_draftPaths (imports : List String) : (draftPaths imports).Nodup :=
  nodup_eraseDups _

/-- The paths of a draft in ascending order are those of an import block. -/
theorem mergeSort_draftPaths (imports : List String) :
    ((draftPaths imports).mergeSort fun p q => decide (p ≤ q)) = importPaths imports := by
  have hperm := List.mergeSort_perm (draftPaths imports) fun p q => decide (p ≤ q)
  have hsorted : ((draftPaths imports).mergeSort fun p q => decide (p ≤ q)).Pairwise
      fun p q => decide (p ≤ q) = true :=
    List.pairwise_mergeSort (by simpa using fun _ _ _ => String.le_trans)
      (by simpa using String.le_total) _
  have hnodup := hperm.nodup_iff.2 (nodup_draftPaths imports)
  refine eq_of_ascending (hsorted.imp₂ (fun p q hle hne => ?_) hnodup)
    (pairwise_importPaths imports) fun p => ?_
  · exact Std.lt_of_le_of_ne (of_decide_eq_true hle) hne
  · rw [hperm.mem_iff, mem_importPaths, draftPaths, List.mem_eraseDups, List.mem_filter,
      decide_eq_true_eq]

end Emission

end NodeFamily
