import Mathlib.Data.List.Basic
import NodeFamily.Difference.Script

/-!
# Tidying keeps what a script relates

Tidying a script merges its runs, takes what a deletion and an insertion have in common out of them,
and moves runs sideways. None of it changes the two lists that the script relates (`before_tidy`,
`after_tidy`).

Both lists are what is left of a script without the runs of one kind (`without`), insertions for the
one and deletions for the other, so that every step is treated once for both. The script under
construction is held backwards, and the lemmas about it are about `done.reverse`.
-/

namespace NodeFamily.Difference

variable {α : Type} {skipped : Action}

/-- The items of a script besides those of one kind of run. -/
def without (skipped : Action) (script : List (Edit α)) : List α :=
  script.flatMap fun e => if e.action = skipped then [] else e.items

/-- A script starts from what it has besides insertions. -/
theorem before_eq_without (script : List (Edit α)) : before script = without .insert script := rfl

/-- A script leads to what it has besides deletions. -/
theorem after_eq_without (script : List (Edit α)) : after script = without .delete script := rfl

@[simp]
theorem without_nil : without skipped ([] : List (Edit α)) = [] := rfl

@[simp]
theorem without_cons (e : Edit α) (script : List (Edit α)) :
    without skipped (e :: script) =
      (if e.action = skipped then [] else e.items) ++ without skipped script :=
  List.flatMap_cons

@[simp]
theorem without_append (s t : List (Edit α)) :
    without skipped (s ++ t) = without skipped s ++ without skipped t :=
  List.flatMap_append

/-! ## What lists have in common -/

section Common

variable [DecidableEq α]

/-- The common beginning is a beginning of both lists. -/
theorem take_commonStart (as bs : List α) :
    as.take (commonStart as bs) = bs.take (commonStart as bs) := by
  fun_induction commonStart as bs with
  | case1 a as bs ih => rw [List.take_succ_cons, List.take_succ_cons, ih]
  | case2 => rfl
  | case3 => rfl

/-- The common beginning is no longer than either list. -/
theorem commonStart_le (as bs : List α) :
    commonStart as bs ≤ as.length ∧ commonStart as bs ≤ bs.length := by
  fun_induction commonStart as bs with
  | case1 a as bs ih =>
    rw [List.length_cons, List.length_cons]
    omega
  | case2 => exact ⟨Nat.zero_le _, Nat.zero_le _⟩
  | case3 => exact ⟨Nat.zero_le _, Nat.zero_le _⟩

/-- The common end is no longer than either list. -/
theorem commonEnd_le (as bs : List α) :
    commonEnd as bs ≤ as.length ∧ commonEnd as bs ≤ bs.length := by
  simpa [commonEnd] using commonStart_le as.reverse bs.reverse

/-- The common end is an end of both lists. -/
theorem drop_commonEnd (as bs : List α) :
    as.drop (as.length - commonEnd as bs) = bs.drop (bs.length - commonEnd as bs) := by
  have hstart := take_commonStart as.reverse bs.reverse
  rw [List.take_reverse, List.take_reverse] at hstart
  exact List.reverse_injective hstart

end Common

/-! ## Merging -/

/-- Keeping more at the end of a script. -/
theorem without_keepMore (hkeep : skipped ≠ .keep) (items : List α) (done : List (Edit α)) :
    without skipped (keepMore items done).reverse = without skipped done.reverse ++ items := by
  unfold keepMore
  split
  · simp [hkeep.symm]
  · simp [hkeep.symm]

/-- A pending run holds what was counted: nothing is deleted without a deletion, and nothing
inserted without an insertion. -/
structure Pending.IsCounted (p : Pending α) : Prop where
  /-- Without a deletion nothing is deleted. -/
  deleted : p.deletions = 0 → p.deleted = []
  /-- Without an insertion nothing is inserted. -/
  inserted : p.insertions = 0 → p.inserted = []

/-- What a counted pending run has besides insertions or deletions. -/
theorem Pending.IsCounted.without_edits {p : Pending α} (h : p.IsCounted) :
    without skipped p.edits = (if .delete = skipped then [] else p.deleted) ++
      (if .insert = skipped then [] else p.inserted) := by
  obtain ⟨hdeleted, hinserted⟩ := h
  unfold edits
  by_cases hd : p.deletions = 0
  · by_cases hi : p.insertions = 0
    · simp [hd, hi, hdeleted hd, hinserted hi]
    · simp [hd, hi, hdeleted hd]
  · by_cases hi : p.insertions = 0
    · simp [hd, hi, hinserted hi]
    · simp [hd, hi]

variable [DecidableEq α]

/-- What a deletion and an insertion have in common may be kept instead: at the start before both,
and at the end after both. -/
theorem without_split_common (hkeep : skipped ≠ .keep) (deleted inserted : List α) :
    let start := commonStart inserted deleted
    let deleted' := deleted.drop start
    let inserted' := inserted.drop start
    let tail := commonEnd inserted' deleted'
    inserted.take start ++
        ((if .delete = skipped then [] else deleted'.take (deleted'.length - tail)) ++
          ((if .insert = skipped then [] else inserted'.take (inserted'.length - tail)) ++
            inserted'.drop (inserted'.length - tail))) =
      (if .delete = skipped then [] else deleted) ++ (if .insert = skipped then [] else inserted) :=
    by
  intro start deleted' inserted' tail
  have hstart : inserted.take start = deleted.take start := take_commonStart inserted deleted
  have htail : inserted'.drop (inserted'.length - tail) =
      deleted'.drop (deleted'.length - tail) := drop_commonEnd inserted' deleted'
  cases skipped with
  | keep => exact absurd rfl hkeep
  | delete =>
    rw [if_pos rfl, if_neg (by decide), if_pos rfl, if_neg (by decide), List.nil_append,
      List.nil_append, List.take_append_drop, List.take_append_drop]
  | insert =>
    rw [if_neg (by decide), if_pos rfl, if_neg (by decide), if_pos rfl, List.nil_append,
      List.append_nil, hstart, htail, List.take_append_drop, List.take_append_drop]

/-- Settling a pending run adds it to the script, and the kept items after it. -/
theorem without_settle (hkeep : skipped ≠ .keep) (done : List (Edit α)) (p : Pending α)
    (items : List α) : without skipped (settle done p items).reverse =
      without skipped done.reverse ++ without skipped p.edits ++ items := by
  unfold settle
  split_ifs with hfew hone
  · -- One run or none is taken as it is.
    split
    · next hnone => simp [hnone, without_keepMore hkeep]
    · simp [hkeep.symm]
  · simp [hkeep.symm]
  · -- There are deletions and insertions, so that both are edits of the pending run.
    have hedits : p.edits = [⟨.delete, p.deleted⟩, ⟨.insert, p.inserted⟩] := by
      unfold Pending.edits
      rw [not_or] at hone
      rw [if_neg hone.1, if_neg hone.2]
      rfl
    have hdone : without skipped (if commonStart p.inserted p.deleted = 0 then done
          else keepMore (p.inserted.take (commonStart p.inserted p.deleted)) done).reverse =
        without skipped done.reverse ++
          p.inserted.take (commonStart p.inserted p.deleted) := by
      split_ifs with hzero
      · rw [hzero, List.take_zero, List.append_nil]
      · exact without_keepMore hkeep _ done
    rw [hedits, without_cons, without_cons, without_nil, List.append_nil,
      ← without_split_common hkeep]
    simp [hkeep.symm, hdone]

/-- Merging adds the pending run and the rest of the script to what is done. -/
theorem without_mergeFrom (hkeep : skipped ≠ .keep) (done : List (Edit α)) {p : Pending α}
    (hp : p.IsCounted) (script : List (Edit α)) :
    without skipped (mergeFrom done p script).reverse =
      without skipped done.reverse ++ without skipped p.edits ++ without skipped script := by
  -- By induction on what is left of the script; that the pending run is counted is what each
  -- step keeps.
  induction script generalizing done p with
  | nil => rw [mergeFrom, without_settle hkeep, without_nil]
  | cons e script ih =>
    obtain ⟨action, items⟩ := e
    cases action with
    | keep =>
      -- A kept run settles what is pending, and a new run with nothing in it begins.
      have hnone : without skipped ({} : Pending α).edits = [] := rfl
      rw [mergeFrom, ih _ ⟨fun _ => rfl, fun _ => rfl⟩, without_settle hkeep, hnone]
      simp [hkeep.symm]
    | delete =>
      have hmore : Pending.IsCounted
          { p with deletions := p.deletions + 1, deleted := p.deleted ++ items } :=
        ⟨fun h => absurd h (Nat.succ_ne_zero _), hp.inserted⟩
      rw [mergeFrom, ih _ hmore, hmore.without_edits, hp.without_edits, without_cons]
      -- Of what is pending and the deletion, one side is left out.
      cases skipped with
      | keep => exact absurd rfl hkeep
      | delete => simp
      | insert => simp
    | insert =>
      have hmore : Pending.IsCounted
          { p with insertions := p.insertions + 1, inserted := p.inserted ++ items } :=
        ⟨hp.deleted, fun h => absurd h (Nat.succ_ne_zero _)⟩
      rw [mergeFrom, ih _ hmore, hmore.without_edits, hp.without_edits, without_cons]
      cases skipped with
      | keep => exact absurd rfl hkeep
      | delete => simp
      | insert => simp

/-- Merging the runs of a script. -/
theorem without_merge (hkeep : skipped ≠ .keep) (script : List (Edit α)) :
    without skipped (merge script) = without skipped script := by
  have hmerged := without_mergeFrom hkeep [] (p := {}) ⟨fun _ => rfl, fun _ => rfl⟩ script
  have hnone : without skipped ({} : Pending α).edits = [] := rfl
  rw [hnone, List.reverse_nil, without_nil, List.nil_append, List.nil_append] at hmerged
  unfold merge
  split
  · next rest hlast =>
    rw [← hmerged, hlast]
    simp
  · exact hmerged

/-! ## Moving runs sideways -/

/-- Moving runs sideways, where `previous` stands before the script. -/
theorem without_shift (hkeep : skipped ≠ .keep) (previous : Edit α) (script : List (Edit α)) :
    without skipped (shift previous script).2 = without skipped (previous :: script) := by
  fun_induction shift previous script with
  | case1 previous run next rest hkept hsuffix stem _ rest' hshift ih =>
    -- The run ends in the kept run before it, which may as well stand in front of its stem.
    have hrun : stem ++ previous.items = run.items :=
      List.suffix_iff_eq_append.1 (List.isSuffixOf_iff_suffix.1 hsuffix)
    rw [hshift] at ih
    simp only [without_cons, hkept.1, hkept.2, if_neg hkeep.symm] at ih ⊢
    rw [ih, ← hrun]
    split_ifs
    · simp
    · simp
  | case2 previous run next rest hkept _ hprefix _ rest' hshift ih =>
    -- The run begins with the kept run after it, which may as well stand before its rest.
    have hrun : next.items ++ run.items.drop next.items.length = run.items :=
      List.prefix_iff_eq_append.1 (List.isPrefixOf_iff_prefix.1 hprefix)
    rw [hshift] at ih
    simp only [without_cons, hkept.1, hkept.2, if_neg hkeep.symm] at ih ⊢
    rw [ih]
    split_ifs
    · simp
    · rw [← List.append_assoc run.items, ← hrun]
      simp
  | case3 previous run next rest _ _ _ _ rest' hshift ih =>
    rw [hshift] at ih
    rw [without_cons, ih, without_cons previous]
  | case4 previous run next rest _ _ rest' hshift ih =>
    rw [hshift] at ih
    rw [without_cons, ih, without_cons previous]
  | case5 => rfl

/-! ## Tidying -/

/-- Merging and moving runs, however often. -/
theorem without_tidyFrom (hkeep : skipped ≠ .keep) (fuel : Nat) (script : List (Edit α)) :
    without skipped (tidyFrom fuel script) = without skipped script := by
  induction fuel generalizing script with
  | zero => exact without_merge hkeep script
  | succ fuel ih =>
    rw [tidyFrom, ← without_merge hkeep script]
    cases merge script with
    | nil => rfl
    | cons first rest =>
      dsimp only
      rw [← without_shift hkeep first rest]
      split_ifs
      · exact ih _
      · rfl

/-- Tidying keeps what a script starts from. -/
theorem before_tidy (script : List (Edit α)) : before (tidy script) = before script := by
  rw [before_eq_without, before_eq_without]
  exact without_tidyFrom (by decide) _ script

/-- Tidying keeps what a script leads to. -/
theorem after_tidy (script : List (Edit α)) : after (tidy script) = after script := by
  rw [after_eq_without, after_eq_without]
  exact without_tidyFrom (by decide) _ script

end NodeFamily.Difference
