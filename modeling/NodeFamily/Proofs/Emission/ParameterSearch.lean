import Mathlib.Data.List.Nodup
import Mathlib.Data.List.Perm.Subperm
import NodeFamily.Emission.ResultParam
import NodeFamily.Proofs.Pieces

/-!
# The search for the result parameter

The result parameter is sought in a list of names without an end: four preferred names, and then the
numbered ones (`candidate`). The search takes the first of them that is not in use, and it always
comes to one, because the candidates are all different and there are only so many names in use
(`le_length_of_used`). `resultParam` tries more candidates than there can be in use, so that what it
takes is what the search without an end comes to (`exists_first_candidate`).
-/

namespace NodeFamily.Emission

/-! ## Candidates -/

/-- The names in the order in which they are tried. -/
def candidate : Nat → String
  | 0 => "R"
  | 1 => "Result"
  | 2 => "RT"
  | 3 => "RV"
  | k + 4 => "R" ++ toString (k + 1)

/-- A candidate is a preferred name or a numbered one. -/
theorem candidate_cases (k : Nat) :
    candidate k ∈ preferredParams ∨ ∃ n, candidate k = numberedParam n := by
  match k with
  | 0 | 1 | 2 | 3 => exact .inl (by decide)
  | k + 4 => exact .inr ⟨k, rfl⟩

/-- The first candidates are the preferred names, and after them come the numbered ones. -/
theorem map_candidate_range (n : Nat) :
    (List.range (n + 4)).map candidate = preferredParams ++ (List.range n).map numberedParam := by
  have hnumbered : ∀ k, candidate (4 + k) = numberedParam k := by
    intro k
    rw [Nat.add_comm, candidate, numberedParam]
  rw [Nat.add_comm, List.range_add, List.map_append, List.map_map]
  simp only [Function.comp_def, hnumbered]
  rfl

/-- Numbered names have different numbers. -/
theorem numberedParam_injective : Function.Injective numberedParam := by
  intro m n h
  have hdigits : toString (m + 1) = toString (n + 1) := (String.append_right_inj "R").1 h
  exact Nat.succ.inj (Text.toString_injective hdigits)

/-- A preferred name has no number. -/
theorem numberedParam_not_mem_preferredParams (n : Nat) : numberedParam n ∉ preferredParams := by
  -- After its first letter a preferred name ends, or goes on with something that is no digit.
  have hrest : ∀ p ∈ preferredParams, ∃ rest, p = "R" ++ rest ∧
      (rest = "" ∨ ∃ c ∈ rest.toList, c.isDigit = false) := by
    simp only [preferredParams, List.forall_mem_cons]
    refine ⟨⟨"", by decide, .inl rfl⟩, ⟨"esult", by decide, .inr ⟨'e', by decide⟩⟩,
      ⟨"T", by decide, .inr ⟨'T', by decide⟩⟩, ⟨"V", by decide, .inr ⟨'V', by decide⟩⟩, by simp⟩
  intro hmem
  obtain ⟨rest, heq, hdigits⟩ := hrest _ hmem
  have hnumber : toString (n + 1) = rest := (String.append_right_inj "R").1 heq
  rcases hdigits with rfl | ⟨c, hc, hdigit⟩
  · have hempty := congrArg String.toList hnumber
    simp at hempty
  · rw [← hnumber] at hc
    rw [Text.isDigit_of_mem_toString hc] at hdigit
    exact Bool.noConfusion hdigit

/-- The candidates are all different. -/
theorem nodup_candidates (n : Nat) : ((List.range n).map candidate).Nodup := by
  -- With four more candidates the list is the preferred names and `n` numbered ones.
  have hall : ((List.range (n + 4)).map candidate).Nodup := by
    rw [map_candidate_range]
    refine List.nodup_append.2 ⟨by decide, List.nodup_range.map numberedParam_injective, ?_⟩
    intro p hp q hq heq
    obtain ⟨k, -, rfl⟩ := List.mem_map.1 hq
    exact numberedParam_not_mem_preferredParams k (heq ▸ hp)
  exact hall.sublist ((List.range_sublist.2 (Nat.le_add_right n 4)).map candidate)

/-! ## The search -/

/-- Among more different names than there are in use, one is not in use. -/
theorem exists_not_mem_of_length_lt {names : List String} (hnodup : names.Nodup)
    (used : List String) (h : used.length < names.length) : ∃ n ∈ names, n ∉ used := by
  by_contra hall
  push Not at hall
  exact Nat.not_le.2 h (List.Nodup.subperm hnodup hall).length_le

/-- No more candidates are in use than there are names in use. -/
theorem le_length_of_used {used : List String} {k : Nat} (h : ∀ m < k, candidate m ∈ used) :
    k ≤ used.length := by
  by_contra hlt
  obtain ⟨n, hn, hnew⟩ := exists_not_mem_of_length_lt (nodup_candidates k) used
    (by simpa using Nat.not_le.1 hlt)
  obtain ⟨m, hm, rfl⟩ := List.mem_map.1 hn
  exact hnew (h m (List.mem_range.1 hm))

/-- Among the candidates that `resultParam` tries it takes the first one that is not in use. -/
theorem find?_candidates (s : Schema) :
    ((List.range ((usedNames s).length + 5)).map candidate).find?
      (fun c => !(usedNames s).contains c) = some (resultParam s) := by
  have htried : (List.range ((usedNames s).length + 5)).map candidate =
      preferredParams ++ (List.range ((usedNames s).length + 1)).map numberedParam :=
    map_candidate_range _
  obtain ⟨n, hn, hnew⟩ := exists_not_mem_of_length_lt
    (nodup_candidates ((usedNames s).length + 5)) (usedNames s) (by simp)
  unfold resultParam
  dsimp only
  rw [← htried]
  -- One of the candidates is not in use, so the search ends before the default is asked for.
  cases hfind : ((List.range ((usedNames s).length + 5)).map candidate).find?
      (fun c => !(usedNames s).contains c) with
  | none =>
    have hused := List.find?_eq_none.1 hfind n hn
    simp [hnew] at hused
  | some c => rfl

/-- The result parameter is the first candidate that the schema does not use. -/
theorem exists_first_candidate (s : Schema) : ∃ k, resultParam s = candidate k ∧
    candidate k ∉ usedNames s ∧ ∀ m < k, candidate m ∈ usedNames s := by
  obtain ⟨hnew, k, hk, hget, hused⟩ := List.find?_eq_some_iff_getElem.1 (find?_candidates s)
  rw [List.getElem_map, List.getElem_range] at hget
  rw [Bool.not_eq_true', List.contains_eq_mem, decide_eq_false_iff_not, ← hget] at hnew
  refine ⟨k, hget.symm, hnew, fun m hm => ?_⟩
  simpa using hused m hm

/-- The result parameter is none of the names in use. -/
theorem resultParam_not_mem_usedNames (s : Schema) : resultParam s ∉ usedNames s := by
  obtain ⟨k, heq, hnew, -⟩ := exists_first_candidate s
  rwa [heq]

/-- The result parameter is one of the preferred names or a numbered one. -/
theorem resultParam_cases (s : Schema) :
    resultParam s ∈ preferredParams ∨ ∃ n, resultParam s = numberedParam n := by
  obtain ⟨k, heq, -⟩ := exists_first_candidate s
  rw [heq]
  exact candidate_cases k

/-- The result parameter begins with a capital R. -/
theorem head?_resultParam (s : Schema) : (resultParam s).toList.head? = some 'R' := by
  rcases resultParam_cases s with hmem | ⟨n, hn⟩
  · have hall : ∀ n ∈ preferredParams, n.toList.head? = some 'R' := by decide
    exact hall _ hmem
  · simp [hn, numberedParam]

end NodeFamily.Emission
