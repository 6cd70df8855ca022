import Mathlib.Algebra.BigOperators.Fin
import Mathlib.Data.List.FinRange
import NodeFamily.Proofs.FirstFault

/-!
# The order of declarations

Declarations may be written in any order. `parse_moved` compares a list with the same declarations
moved to other places (`moved`): both are read or neither is, the variants move along, and the
faults move along too. The one exception is a repeated header, where it is the later declaration
that is at fault: moving declarations may put that fault elsewhere, but there are as many of them as
before.

Apart from that fault, what is reported of a declaration depends on its place only through the place
that the fault tells (`filter_faultsOf`). Repeated headers are counted against the distinct headers
(`card_repeated_add_card_image`), which no order changes.
-/

namespace NodeFamily

/-! ## Moving declarations -/

/-- The declarations with the one at place `k` moved to place `σ k`. -/
def moved (decls : List String) (σ : Equiv.Perm (Fin decls.length)) : List String :=
  List.ofFn fun i => decls[σ.symm i]

/-- The place to which a declaration is moved; there is nothing to move outside the list. -/
def movedTo {n : Nat} (σ : Equiv.Perm (Fin n)) (k : Nat) : Nat :=
  if h : k < n then σ ⟨k, h⟩ else k

/-- The place with its declaration at another index. -/
def Place.mapDecl (g : Nat → Nat) : Place → Place
  | .schema => .schema
  | .declaration i => .declaration (g i)
  | .field i j => .field (g i) j

/-- The same fault of a declaration at another index. -/
def Fault.mapDecl (g : Nat → Nat) (f : Fault) : Fault := { f with place := f.place.mapDecl g }

/-- The same use of a leaf type in a declaration at another index. -/
def LeafUse.mapDecl (g : Nat → Nat) (l : LeafUse) : LeafUse := { l with place := l.place.mapDecl g }

/-- The same reading of a field in a declaration at another index. -/
def FieldReading.mapDecl (g : Nat → Nat) (x : FieldReading) : FieldReading :=
  { x with leaf? := x.leaf?.map (LeafUse.mapDecl g) }

/-- The same result of reading a segment in a declaration at another index. -/
def resultMapDecl (g : Nat → Nat) : Except Fault FieldReading → Except Fault FieldReading
  | .error f => .error (f.mapDecl g)
  | .ok x => .ok (x.mapDecl g)

/-- A declaration that is in the list is moved to where the permutation has it. -/
@[simp]
theorem movedTo_val {n : Nat} (σ : Equiv.Perm (Fin n)) (k : Fin n) : movedTo σ k = σ k := by
  simp [movedTo]

/-- Moving keeps the number of declarations. -/
@[simp]
theorem length_moved (decls : List String) (σ : Equiv.Perm (Fin decls.length)) :
    (moved decls σ).length = decls.length := by
  simp [moved]

/-- Moving nothing keeps the list. -/
@[simp]
theorem moved_refl (decls : List String) : moved decls (Equiv.refl _) = decls := by
  simp [moved]

/-- What stands at a place after moving. -/
theorem getElem_moved (decls : List String) (σ : Equiv.Perm (Fin decls.length)) (i : Nat)
    (h : i < (moved decls σ).length) :
    (moved decls σ)[i] = decls[σ.symm ⟨i, length_moved decls σ ▸ h⟩] := by
  simp [moved]

/-- Moving keeps the declarations, each as often as it stands in the list. -/
theorem moved_perm (decls : List String) (σ : Equiv.Perm (Fin decls.length)) :
    (moved decls σ).Perm decls := by
  have h := Equiv.Perm.ofFn_comp_perm σ.symm fun k : Fin decls.length => decls[k]
  simpa [moved, Function.comp_def] using h

/-! ## A declaration at another index -/

/-- The index of a declaration changes nothing in reading two words but the place that is told. -/
theorem readField_mapDecl (g : Nat → Nat) (place : Place) (variant : String)
    (earlier : List String) (text : String) (type name : Token) :
    readField (place.mapDecl g) variant earlier text type name =
      resultMapDecl g (readField place variant earlier text type name) := by
  unfold readField
  split
  · rfl
  · split
    · rfl
    · split_ifs
      all_goals rfl

/-- The index of a declaration changes nothing in reading a segment but the place that is told. -/
theorem Segment.read_mapDecl (g : Nat → Nat) (place : Place) (variant : String)
    (earlier : List String) (s : Segment) :
    s.read (place.mapDecl g) variant earlier =
      resultMapDecl g (s.read place variant earlier) := by
  unfold Segment.read
  split
  · split_ifs
    · exact readField_mapDecl g place variant earlier s.text _ _
    · rfl
  · rfl

/-- The names taken after a segment are the same at any index. -/
theorem namesAfter_resultMapDecl (g : Nat → Nat) (earlier : List String)
    (r : Except Fault FieldReading) :
    namesAfter earlier (resultMapDecl g r) = namesAfter earlier r := by
  cases r <;> rfl

/-- The index of a declaration changes nothing in reading its segments but the places. -/
theorem readSegments_mapDecl (g : Nat → Nat) (i : Nat) (variant : String) (earlier : List String)
    (j : Nat) (segments : List Segment) :
    readSegments (g i) variant earlier j segments =
      (readSegments i variant earlier j segments).map (resultMapDecl g) := by
  induction segments generalizing earlier j with
  | nil => rfl
  | cons s segments ih =>
    have hread : s.read (.field (g i) j) variant earlier =
        resultMapDecl g (s.read (.field i j) variant earlier) :=
      s.read_mapDecl g (.field i j) variant earlier
    rw [readSegments_cons, readSegments_cons, List.map_cons, hread, namesAfter_resultMapDecl, ih]

/-- The faults of results at another index. -/
theorem filterMap_faultOf? (g : Nat → Nat) (results : List (Except Fault FieldReading)) :
    (results.map (resultMapDecl g)).filterMap faultOf? =
      (results.filterMap faultOf?).map (Fault.mapDecl g) := by
  rw [List.filterMap_map, List.map_filterMap]
  refine List.filterMap_congr fun r _ => ?_
  cases r <;> rfl

/-- The readings of results at another index. -/
theorem filterMap_readingOf? (g : Nat → Nat) (results : List (Except Fault FieldReading)) :
    (results.map (resultMapDecl g)).filterMap readingOf? =
      (results.filterMap readingOf?).map (FieldReading.mapDecl g) := by
  rw [List.filterMap_map, List.map_filterMap]
  refine List.filterMap_congr fun r _ => ?_
  cases r <;> rfl

/-- The leaf types of readings at another index. -/
theorem filterMap_leaf? (g : Nat → Nat) (readings : List FieldReading) :
    (readings.map (FieldReading.mapDecl g)).filterMap (·.leaf?) =
      (readings.filterMap (·.leaf?)).map (LeafUse.mapDecl g) := by
  rw [List.filterMap_map, List.map_filterMap]
  rfl

/-- The faults of leaf types at another index. -/
theorem filterMap_fault? (g : Nat → Nat) (isVariant : String → Bool) (leaves : List LeafUse) :
    (leaves.map (LeafUse.mapDecl g)).filterMap (·.fault? isVariant) =
      (leaves.filterMap (·.fault? isVariant)).map (Fault.mapDecl g) := by
  rw [List.filterMap_map, List.map_filterMap]
  refine List.filterMap_congr fun l _ => ?_
  rw [Function.comp_apply, LeafUse.fault?, LeafUse.fault?, Option.map_map]
  rfl

/-! ## What depends on the order -/

/-- A fault that is not that of a repeated header. -/
def Fault.isLocal (f : Fault) : Bool := f.code ≠ .duplicateVariant

/-- What is found by itself of a header does not depend on the other headers, and on the index of
the declaration only in its place. -/
theorem filter_headerFault? (g : Nat → Nat) (names names' : List (Option String)) (i : Nat)
    (d : Declaration) (head : List Token) (colon : Token) :
    (d.headerFault? names' (g i) head colon).filter Fault.isLocal =
      ((d.headerFault? names i head colon).filter Fault.isLocal).map (Fault.mapDecl g) := by
  unfold Declaration.headerFault?
  split
  · rfl
  · split_ifs
    · rfl
    · split
      · rfl
      · dsimp only
        split_ifs
        all_goals rfl
  · rfl

/-- A header repeats another one exactly when it is legal and is first found before it. -/
theorem any_headerFault? {names : List (Option String)} {i : Nat} {d : Declaration}
    {head : List Token} {colon : Token} {segments : List Segment}
    (hparts : d.parts? = some (head, colon, segments)) :
    (d.headerFault? names i head colon).any (fun f => !f.isLocal) =
      d.name?.any fun n => names.idxOf (some n) < i := by
  unfold Declaration.headerFault? Declaration.name?
  rw [hparts]
  split
  · simp [Fault.isLocal]
  · next t =>
    by_cases hword : t.kind = .word
    · cases hproblem : variantProblem? t.text with
      | some p => simp [hword, hproblem, Fault.isLocal]
      | none =>
        by_cases hfirst : names.idxOf (some t.text) < i
        · simp [hword, hproblem, hfirst, Fault.isLocal]
        · simp [hword, hproblem, hfirst]
    · simp [hword, Fault.isLocal, Declaration.notSingle]
  · next t rest hne =>
    cases rest with
    | nil => exact (hne rfl).elim
    | cons u rest => simp [Fault.isLocal, Declaration.notSingle]

/-- What the first round finds in a declaration at another index of another list: the same variant
and the same leaf types, and the same faults but for that of a repeated header. -/
theorem Declaration.read_mapDecl (g : Nat → Nat) (names names' : List (Option String)) (i : Nat)
    (d : Declaration) :
    (d.read names' (g i)).variant = (d.read names i).variant ∧
      (d.read names' (g i)).leaves = (d.read names i).leaves.map (LeafUse.mapDecl g) ∧
      (d.read names' (g i)).faults.filter Fault.isLocal =
        ((d.read names i).faults.filter Fault.isLocal).map (Fault.mapDecl g) := by
  unfold Declaration.read
  split
  · exact ⟨rfl, rfl, rfl⟩
  · next head colon segments _ =>
    dsimp only
    rw [readSegments_mapDecl, filterMap_readingOf?, filterMap_leaf?, filterMap_faultOf?,
      List.map_map]
    refine ⟨rfl, rfl, ?_⟩
    rw [List.filter_append, List.filter_append, List.map_append, ← Option.toList_filter,
      ← Option.toList_filter, filter_headerFault? g names names', Option.toList_map,
      List.filter_map]
    rfl

/-- What is reported of a declaration in another list with the same declared names, at another
index, is the same but for the fault of a repeated header. -/
theorem filter_faultsOf {decls decls' : List String} (h : declares decls' = declares decls)
    (g : Nat → Nat) (i : Nat) (d : String) :
    (faultsOf decls' (g i) d).filter Fault.isLocal =
      ((faultsOf decls i d).filter Fault.isLocal).map (Fault.mapDecl g) := by
  obtain ⟨-, hleaves, hfaults⟩ := (Declaration.ofString d).read_mapDecl g (headerNames decls)
    (headerNames decls') i
  unfold faultsOf
  dsimp only
  rw [List.filter_append, List.filter_append, List.map_append, hfaults, hleaves, h,
    filterMap_fault?, List.filter_map]
  rfl

/-! ## Repeated headers -/

/-- The fault of a segment is not that of a repeated header. -/
theorem isLocal_of_read {place : Place} {variant : String} {earlier : List String} {s : Segment}
    {f : Fault} (h : s.read place variant earlier = .error f) : f.isLocal = true := by
  unfold Segment.read at h
  split at h
  · split_ifs at h
    · unfold readField at h
      split at h
      · exact Except.error.inj h ▸ rfl
      · split at h
        · exact Except.error.inj h ▸ rfl
        · split_ifs at h
          exact Except.error.inj h ▸ rfl
    · exact Except.error.inj h ▸ rfl
  · exact Except.error.inj h ▸ rfl

/-- Of what is reported of a declaration there is at most one fault of a repeated header, and there
is one exactly when the header is legal and is first found before it. -/
theorem countP_faultsOf (decls : List String) (i : Nat) (d : String) :
    (faultsOf decls i d).countP (fun f => !f.isLocal) =
      ((Declaration.ofString d).name?.any fun n =>
        (headerNames decls).idxOf (some n) < i).toNat := by
  have hleaves : ∀ leaves : List LeafUse,
      (leaves.filterMap (·.fault? (declares decls))).countP (fun f => !f.isLocal) = 0 := by
    intro leaves
    rw [List.countP_eq_zero]
    intro f hf
    obtain ⟨l, -, hl⟩ := List.mem_filterMap.1 hf
    obtain ⟨p, -, rfl⟩ := Option.map_eq_some_iff.1 hl
    simp [Fault.isLocal]
  unfold faultsOf
  dsimp only
  rw [List.countP_append, hleaves, Nat.add_zero]
  unfold Declaration.read
  split
  · next hparts =>
    have hnone : (Declaration.ofString d).name? = none := by
      unfold Declaration.name?
      rw [hparts]
    rw [hnone]
    rfl
  · next head colon segments hparts =>
    have hsegments : ((readSegments i ((Declaration.ofString d).name?.getD "") [] 0
        segments).filterMap faultOf?).countP (fun f => !f.isLocal) = 0 := by
      rw [List.countP_eq_zero]
      intro f hf
      obtain ⟨r, hr, hf⟩ := List.mem_filterMap.1 hf
      obtain ⟨place, names, s, rfl⟩ := exists_read_of_mem hr
      simp [isLocal_of_read (faultOf?_eq_some_iff.1 hf)]
    rw [List.countP_append, hsegments, Nat.add_zero, ← any_headerFault? hparts]
    cases (Declaration.ofString d).headerFault? (headerNames decls) i head colon with
    | none => rfl
    | some f => cases hf : f.isLocal <;> simp [hf]

/-- The places whose element repeats one at an earlier place, and the distinct elements, make up all
places with an element, in whichever order `σ` puts them. -/
theorem card_repeated_add_card_image {n : Nat} {α : Type} [DecidableEq α] (f : Fin n → Option α)
    (σ : Equiv.Perm (Fin n)) :
    (Finset.univ.filter fun k => (f k).isSome ∧ ∃ m, σ m < σ k ∧ f m = f k).card +
        ((Finset.univ.filter fun k => (f k).isSome).image f).card =
      (Finset.univ.filter fun k => (f k).isSome).card := by
  -- The distinct elements are those that stand somewhere for the first time.
  have himage : (Finset.univ.filter fun k => (f k).isSome).image f =
      ((Finset.univ.filter fun k => (f k).isSome).filter
        fun k => ¬∃ m, σ m < σ k ∧ f m = f k).image f := by
    refine Finset.Subset.antisymm (fun a ha => ?_)
      (Finset.image_subset_image (Finset.filter_subset _ _))
    obtain ⟨k, hk, rfl⟩ := Finset.mem_image.1 ha
    obtain ⟨m, hm, hmin⟩ := Finset.exists_min_image (Finset.univ.filter fun m => f m = f k) σ
      ⟨k, by simp⟩
    have hsame : f m = f k := (Finset.mem_filter.1 hm).2
    refine Finset.mem_image.2 ⟨m, Finset.mem_filter.2 ⟨?_, ?_⟩, hsame⟩
    · simpa [hsame] using hk
    · rintro ⟨l, hl, hfl⟩
      exact absurd (hmin l (by simp [hfl, hsame])) (not_le.2 hl)
  have hinj : Set.InjOn f ((Finset.univ.filter fun k => (f k).isSome).filter
      fun k => ¬∃ m, σ m < σ k ∧ f m = f k) := by
    intro k hk m hm hsame
    have hk := (Finset.mem_filter.1 (Finset.mem_coe.1 hk)).2
    have hm := (Finset.mem_filter.1 (Finset.mem_coe.1 hm)).2
    push Not at hk hm
    have hle : σ k ≤ σ m := not_lt.1 fun hlt => hk m hlt hsame.symm
    have hge : σ m ≤ σ k := not_lt.1 fun hlt => hm k hlt hsame
    exact σ.injective (le_antisymm hle hge)
  rw [himage, Finset.card_image_of_injOn hinj, ← Finset.filter_filter]
  exact Finset.card_filter_add_card_filter_not _

/-- A name is first found before the place of declaration `k` among moved declarations exactly when
one that is moved before it has that name. -/
theorem idxOf_headerNames_moved_lt_iff {decls : List String} {σ : Equiv.Perm (Fin decls.length)}
    {k : Fin decls.length} {n : String} :
    (headerNames (moved decls σ)).idxOf (some n) < σ k ↔
      ∃ m, σ m < σ k ∧ (Declaration.ofString decls[m]).name? = some n := by
  have hget : ∀ i : Fin decls.length, (headerNames (moved decls σ))[(i : Nat)]? =
      some (Declaration.ofString decls[σ.symm i]).name? := by
    intro i
    rw [headerNames, List.getElem?_map, List.getElem?_eq_getElem (by simp), getElem_moved]
    rfl
  have hle : (σ k : Nat) ≤ (headerNames (moved decls σ)).length := by
    simp [headerNames]
  rw [← not_le, le_idxOf_iff hle]
  push Not
  constructor
  · rintro ⟨i, hi, hname⟩
    refine ⟨σ.symm ⟨i, hi.trans (σ k).isLt⟩, ?_, ?_⟩
    · rw [Equiv.apply_symm_apply]
      exact hi
    · rw [hget ⟨i, hi.trans (σ k).isLt⟩] at hname
      exact Option.some.inj hname
  · rintro ⟨m, hm, hname⟩
    refine ⟨σ m, hm, ?_⟩
    simp only [hget, Equiv.symm_apply_apply, hname]

/-! ## All faults -/

/-- What is reported of moved declarations, put back into the order that they had. -/
theorem declarationFaults_moved_perm (decls : List String) (σ : Equiv.Perm (Fin decls.length)) :
    (declarationFaults (moved decls σ)).Perm
      ((List.finRange decls.length).flatMap fun k => faultsOf (moved decls σ) (σ k) decls[k]) := by
  have hfaults : declarationFaults (moved decls σ) =
      (List.finRange decls.length).flatMap fun i : Fin decls.length =>
        faultsOf (moved decls σ) i decls[σ.symm i] := by
    rw [declarationFaults, readings]
    have hreadings : ((moved decls σ).mapIdx fun i d =>
          (Declaration.ofString d).read (headerNames (moved decls σ)) i) =
        (List.finRange decls.length).map fun i =>
          (Declaration.ofString decls[σ.symm i]).read (headerNames (moved decls σ)) i := by
      refine List.ext_getElem (by simp) fun i h _ => ?_
      rw [List.getElem_mapIdx, getElem_moved, List.getElem_map, List.getElem_finRange]
      rfl
    rw [hreadings, List.flatMap_map]
    rfl
  have hperm := (Equiv.Perm.map_finRange_perm σ).symm.flatMap_right fun i : Fin decls.length =>
    faultsOf (moved decls σ) i decls[σ.symm i]
  rw [List.flatMap_map] at hperm
  simpa only [hfaults, Equiv.symm_apply_apply] using hperm

/-- The same names are declared after moving. -/
theorem declares_moved (decls : List String) (σ : Equiv.Perm (Fin decls.length)) :
    declares (moved decls σ) = declares decls := by
  funext n
  rw [Bool.eq_iff_iff, declares_iff, declares_iff]
  simp only [(moved_perm decls σ).mem_iff]

/-- All faults but those of repeated headers move along with the declarations. -/
theorem filter_declarationFaults_moved (decls : List String) (σ : Equiv.Perm (Fin decls.length)) :
    ((declarationFaults (moved decls σ)).filter Fault.isLocal).Perm
      (((declarationFaults decls).filter Fault.isLocal).map (Fault.mapDecl (movedTo σ))) := by
  have hdecls := declarationFaults_moved_perm decls (Equiv.refl _)
  rw [moved_refl] at hdecls
  refine ((declarationFaults_moved_perm decls σ).filter _).trans
    (List.Perm.trans ?_ ((hdecls.filter _).map _).symm)
  rw [List.filter_flatMap, List.filter_flatMap, List.map_flatMap]
  refine .of_eq (List.flatMap_congr fun k _ => ?_)
  rw [← filter_faultsOf (declares_moved decls σ), movedTo_val]
  rfl

/-- After moving there is one fault of a repeated header for each legal one that another one is
moved before. -/
theorem countP_declarationFaults_moved (decls : List String)
    (σ : Equiv.Perm (Fin decls.length)) :
    (declarationFaults (moved decls σ)).countP (fun f => !f.isLocal) =
      (Finset.univ.filter fun k => (Declaration.ofString decls[k]).name?.isSome ∧ ∃ m, σ m < σ k ∧
        (Declaration.ofString decls[m]).name? = (Declaration.ofString decls[k]).name?).card := by
  rw [(declarationFaults_moved_perm decls σ).countP_eq, List.countP_flatMap, Finset.card_filter,
    Fin.sum_univ_def]
  congr 1
  refine List.map_congr_left fun k _ => ?_
  rw [Function.comp_apply, countP_faultsOf]
  cases hname : (Declaration.ofString decls[k]).name? with
  | none => simp
  | some n =>
    simp only [Option.any_some, idxOf_headerNames_moved_lt_iff, Option.isSome_some, true_and]
    split_ifs with h
    · rw [decide_eq_true h]
      rfl
    · rw [decide_eq_false h]
      rfl

/-- There are as many faults of repeated headers after moving as before. -/
theorem countP_declarationFaults (decls : List String) (σ : Equiv.Perm (Fin decls.length)) :
    (declarationFaults (moved decls σ)).countP (fun f => !f.isLocal) =
      (declarationFaults decls).countP fun f => !f.isLocal := by
  have hdecls := countP_declarationFaults_moved decls (Equiv.refl _)
  rw [moved_refl] at hdecls
  rw [countP_declarationFaults_moved, hdecls]
  have hmoved := card_repeated_add_card_image
    (fun k => (Declaration.ofString decls[k]).name?) σ
  have hstay := card_repeated_add_card_image
    (fun k => (Declaration.ofString decls[k]).name?) (Equiv.refl _)
  exact Nat.add_right_cancel (hmoved.trans hstay.symm)

/-- Each code is reported as often after moving as before. -/
theorem countP_code_moved (decls : List String) (σ : Equiv.Perm (Fin decls.length)) (c : Code) :
    (declarationFaults (moved decls σ)).countP (·.code = c) =
      (declarationFaults decls).countP (·.code = c) := by
  by_cases hc : c = .duplicateVariant
  · have hrepeated : ∀ faults : List Fault, faults.countP (·.code = c) =
        faults.countP fun f => !f.isLocal := by
      intro faults
      refine List.countP_congr fun f _ => ?_
      simp [Fault.isLocal, hc]
    rw [hrepeated, hrepeated, countP_declarationFaults]
  · -- The other codes are those of faults that move along.
    have hlocal : ∀ faults : List Fault, faults.countP (·.code = c) =
        (faults.filter Fault.isLocal).countP (·.code = c) := by
      intro faults
      rw [List.countP_filter]
      refine List.countP_congr fun f _ => ?_
      simp only [Fault.isLocal, decide_eq_true_eq, Bool.and_eq_true]
      exact ⟨fun h => ⟨h, h ▸ hc⟩, And.left⟩
    rw [hlocal (declarationFaults (moved decls σ)), hlocal (declarationFaults decls),
      (filter_declarationFaults_moved decls σ).countP_eq, List.countP_map]
    rfl

/-- Moved declarations have no fault exactly when they had none before. -/
theorem declarationFaults_moved_eq_nil_iff {decls : List String}
    {σ : Equiv.Perm (Fin decls.length)} :
    declarationFaults (moved decls σ) = [] ↔ declarationFaults decls = [] := by
  have hnil : ∀ faults : List Fault, faults = [] ↔ ∀ c, faults.countP (·.code = c) = 0 := by
    intro faults
    refine ⟨fun h c => by rw [h]; rfl, fun h => List.eq_nil_iff_forall_not_mem.2 fun f hf => ?_⟩
    exact List.countP_eq_zero.1 (h f.code) f hf (decide_eq_true rfl)
  rw [hnil, hnil]
  simp only [countP_code_moved]

/-- Reading collects all faults of the declarations and gives their variants when there are none. -/
theorem parse_collect {decls : List String} (hne : decls ≠ []) :
    parse false decls = if declarationFaults decls = [] then
        .ok (Schema.classify ⟨(readings decls).map Reading.variant⟩)
      else .error (declarationFaults decls) := by
  rw [parse_eq, if_neg (by simpa using hne)]
  simp

/-- The variants move along with the declarations. -/
theorem getElem?_variants_moved (decls : List String) (σ : Equiv.Perm (Fin decls.length))
    (k : Fin decls.length) :
    ((readings (moved decls σ)).map Reading.variant)[(σ k : Nat)]? =
      ((readings decls).map Reading.variant)[(k : Nat)]? := by
  have hread := ((Declaration.ofString decls[k]).read_mapDecl (movedTo σ) (headerNames decls)
    (headerNames (moved decls σ)) k).1
  rw [movedTo_val] at hread
  rw [readings, readings]
  simpa [getElem_moved] using hread

/-- The order of declarations does not matter. Declarations are read in one order exactly when they
are read in another, and then the variant of a declaration stands where the declaration was moved.
When they are not read, each code is reported as often in one order as in the other, and all faults
but those of repeated headers are the same at the declarations as they were moved. -/
theorem parse_moved (decls : List String) (σ : Equiv.Perm (Fin decls.length)) :
    match parse false decls, parse false (moved decls σ) with
    | .ok s, .ok s' => s.variants.length = decls.length ∧ s'.variants.length = decls.length ∧
        ∀ k, s'.variants[(σ k : Nat)]? = s.variants[(k : Nat)]?
    | .error faults, .error faults' =>
        (∀ c, faults'.countP (·.code = c) = faults.countP (·.code = c)) ∧
          (faults'.filter (·.code ≠ .duplicateVariant)).Perm
            ((faults.filter (·.code ≠ .duplicateVariant)).map (Fault.mapDecl (movedTo σ)))
    | _, _ => False := by
  by_cases hne : decls = []
  · -- There is only one order of no declarations, and the fault is that there are none.
    subst hne
    rw [show moved [] σ = [] by simp [moved],
      show parse false [] = .error [noDeclarations] from rfl]
    exact ⟨fun c => rfl, .of_eq rfl⟩
  · have hne' : moved decls σ ≠ [] := by
      intro hnil
      have hlength := length_moved decls σ
      rw [hnil] at hlength
      exact hne (List.length_eq_zero_iff.1 hlength.symm)
    rw [parse_collect hne, parse_collect hne']
    by_cases hfaults : declarationFaults decls = []
    · rw [if_pos hfaults, if_pos (declarationFaults_moved_eq_nil_iff.2 hfaults)]
      refine ⟨by simp [Schema.classify, readings], by simp [Schema.classify, readings],
        fun k => ?_⟩
      have hvariant := congrArg (Option.map Variant.classify) (getElem?_variants_moved decls σ k)
      rwa [← List.getElem?_map, ← List.getElem?_map] at hvariant
    · rw [if_neg hfaults, if_neg (mt declarationFaults_moved_eq_nil_iff.1 hfaults)]
      exact ⟨countP_code_moved decls σ, filter_declarationFaults_moved decls σ⟩

end NodeFamily
