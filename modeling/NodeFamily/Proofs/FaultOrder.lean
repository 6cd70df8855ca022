import NodeFamily.Proofs.FirstFault

/-!
# The order of reported faults

Faults are reported from several checks, some of them only after all declarations were read, and yet
the list is in order: declaration by declaration, and in each declaration the fault of the header
comes first, then what is wrong with the segments by themselves, from first to last, and then the
leaf types that refer to a variant, from first to last (`Fault.Precedes`). No place has two faults,
neither in the list that reading reports nor in that of the check of a schema, and since different
places are written differently (`Place.path_injective`), no two faults of a list show the same path.
`faults_inOrder` says all of this.

A list of faults of several declarations is taken apart at the declarations, whose faults are at
places of their own (`pairwise_flatten_mapIdx`). Inside a declaration each segment gives at most one
fault, and it is at the place of that segment (`pairwise_filterMap_of_place`).
-/

namespace NodeFamily

open Token (lexFrom significant)

/-! ## Paths -/

/-- The pieces of a path between its slashes. -/
def Place.pieces : Place → List String
  | .schema => ["", ""]
  | .declaration i => ["", toString i]
  | .field i j => ["", toString i, "fields", toString j]

/-- No piece of a path has a slash in it. -/
theorem Place.slash_not_mem_pieces (p : Place) : ∀ piece ∈ p.pieces, '/' ∉ piece.toList := by
  have hnumber : ∀ n : Nat, '/' ∉ (toString n).toList := fun n hmem =>
    absurd (Text.isDigit_of_mem_toString hmem) (by decide)
  cases p <;> simp only [Place.pieces, List.forall_mem_cons, hnumber] <;> decide

/-- A path is cut at its slashes into its pieces. -/
theorem Place.cutAt_path (p : Place) :
    Text.cutAt '/' p.path.toList = p.pieces.map String.toList := by
  have hpath : p.path.toList = ['/'].intercalate (p.pieces.map String.toList) := by
    cases p <;> simp [Place.path, Place.pieces, List.intercalate]
  have hne : p.pieces.map String.toList ≠ [] := by
    cases p <;> exact List.cons_ne_nil _ _
  rw [hpath, Text.cutAt_intercalate hne (List.forall_mem_map.2 p.slash_not_mem_pieces)]

/-- Different places have different paths. -/
theorem Place.path_injective : Function.Injective Place.path := by
  intro p q h
  have hpieces : p.pieces = q.pieces := by
    have hcut : p.pieces.map String.toList = q.pieces.map String.toList := by
      rw [← p.cutAt_path, h, q.cutAt_path]
    exact List.map_injective_iff.2 (fun _ _ => String.toList_injective) hcut
  have hnumber : ∀ {m n : Nat}, toString m = toString n ↔ m = n := Text.toString_injective.eq_iff
  have hempty : ∀ n : Nat, toString n ≠ "" := by
    intro n hn
    have hdigits := congrArg String.toList hn
    simp at hdigits
  -- Paths of different kinds have different numbers of pieces, but for an empty number.
  cases p <;> cases q <;> simp only [Place.pieces, List.cons.injEq, hnumber] at hpieces
  all_goals simp_all

/-! ## Order and range -/

/-- One fault of declarations comes before another: its declaration is an earlier one, or in the
same declaration it is the fault of the header, or both are faults of segments and only the other
one says that a type refers to a variant, or they agree in that and its segment is an earlier
one. -/
def Fault.Precedes (f g : Fault) : Prop :=
  match f.place, g.place with
  | .declaration i, .declaration k => i < k
  | .declaration i, .field k _ => i ≤ k
  | .field i _, .declaration k => i < k
  | .field i j, .field k l => i < k ∨ i = k ∧
      (¬f.IsVariantUse ∧ g.IsVariantUse ∨ (f.IsVariantUse ↔ g.IsVariantUse) ∧ j < l)
  | _, _ => False

/-- A place of items with parts, where `sizes` tells for each item how many parts it has: one of the
items, or one of the parts of an item. -/
def Place.IsWithin (sizes : List Nat) : Place → Prop
  | .schema => False
  | .declaration i => i < sizes.length
  | .field i j => ∃ n, sizes[i]? = some n ∧ j < n

/-- A place in an item is in one of the items. -/
theorem Place.IsWithin.decl_lt {sizes : List Nat} {p : Place} (h : p.IsWithin sizes) {i : Nat}
    (hi : p.decl? = some i) : i < sizes.length := by
  cases p with
  | schema => exact h.elim
  | declaration k =>
    obtain rfl := Option.some.inj hi
    exact h
  | field k j =>
    obtain rfl := Option.some.inj hi
    obtain ⟨n, hn, -⟩ := h
    exact (List.getElem?_eq_some_iff.1 hn).1

/-- A fault of an earlier declaration comes before one of a later one. -/
theorem Fault.precedes_of_lt {f g : Fault} {i k : Nat} (hf : f.place.decl? = some i)
    (hg : g.place.decl? = some k) (h : i < k) : f.Precedes g ∧ f.place ≠ g.place := by
  have hne : f.place ≠ g.place := by
    intro heq
    rw [heq, hg] at hf
    exact Nat.ne_of_gt h (Option.some.inj hf)
  unfold Fault.Precedes
  generalize f.place = p at hf hne ⊢
  generalize g.place = q at hg hne ⊢
  cases p <;> cases q <;> simp only [Place.decl?, reduceCtorEq, Option.some.injEq] at hf hg
  all_goals subst hf hg
  · exact ⟨h, hne⟩
  · exact ⟨Nat.le_of_lt h, hne⟩
  · exact ⟨h, hne⟩
  · exact ⟨.inl h, hne⟩

/-- What is found in the items of a list stands in a relation from first to last, when it does so
inside each item and for any two items. -/
theorem pairwise_flatten_mapIdx {α β : Type} {R : β → β → Prop} {f : Nat → α → List β} {l : List α}
    (hitem : ∀ i a, l[i]? = some a → (f i a).Pairwise R)
    (hitems : ∀ i k a b, l[i]? = some a → l[k]? = some b → i < k →
      ∀ x ∈ f i a, ∀ y ∈ f k b, R x y) :
    (l.mapIdx f).flatten.Pairwise R := by
  rw [List.pairwise_flatten]
  constructor
  · intro xs hxs
    obtain ⟨i, hi, rfl⟩ := List.mem_mapIdx.1 hxs
    exact hitem i _ (List.getElem?_eq_getElem hi)
  · rw [List.pairwise_iff_getElem]
    intro i k hi hk hik
    rw [List.getElem_mapIdx, List.getElem_mapIdx]
    rw [List.length_mapIdx] at hi hk
    exact hitems i k _ _ (List.getElem?_eq_getElem hi) (List.getElem?_eq_getElem hk) hik

/-- What is found in the results of reading segments is in the order of the segments and at
different places, when it is at the places of the segments and all of one kind. -/
theorem pairwise_filterMap_precedes {α : Type} {i : Nat} {results : List α}
    {find : α → Option Fault} (isUse : Prop)
    (h : ∀ k r, results[k]? = some r → ∀ e, find r = some e →
      e.place = .field i k ∧ (e.IsVariantUse ↔ isUse)) :
    (results.filterMap find).Pairwise fun f g => f.Precedes g ∧ f.place ≠ g.place := by
  rw [List.pairwise_filterMap, List.pairwise_iff_getElem]
  intro m n hm hn hlt e he e' he'
  obtain ⟨hplace, huse⟩ := h m _ (List.getElem?_eq_getElem hm) e he
  obtain ⟨hplace', huse'⟩ := h n _ (List.getElem?_eq_getElem hn) e' he'
  refine ⟨?_, ?_⟩
  · unfold Fault.Precedes
    rw [hplace, hplace']
    exact .inr ⟨rfl, .inr ⟨huse.trans huse'.symm, hlt⟩⟩
  · simp [hplace, hplace', Nat.ne_of_lt hlt]

/-! ## One declaration -/

/-- The fault of the leaf type of a result, if it is a field with one. -/
def leafFault? (isVariant : String → Bool) (r : Except Fault FieldReading) : Option Fault :=
  (readingOf? r).bind fun x => x.leaf?.bind (·.fault? isVariant)

/-- The fault of the leaf type of a result is a fault of that. -/
theorem isFaultOf_of_leafFault? {isVariant : String → Bool} {r : Except Fault FieldReading}
    {f : Fault} (h : leafFault? isVariant r = some f) : IsFaultOf isVariant r f := by
  obtain ⟨x, hx, hleaf⟩ := Option.bind_eq_some_iff.1 h
  obtain ⟨l, hl, hf⟩ := Option.bind_eq_some_iff.1 hleaf
  exact .inr ⟨x, hx, l, hl, hf⟩

/-- The fault of a leaf type says that it refers to a variant. -/
theorem isVariantUse_of_leafFault? {isVariant : String → Bool} {place : Place} {variant : String}
    {names : List String} {s : Segment} {f : Fault}
    (h : leafFault? isVariant (s.read place variant names) = some f) : f.IsVariantUse := by
  obtain ⟨x, hx, hleaf⟩ := Option.bind_eq_some_iff.1 h
  obtain ⟨l, hl, hf⟩ := Option.bind_eq_some_iff.1 hleaf
  obtain ⟨type, name, -, -, -, hread⟩ := Segment.read_eq_ok_iff.1 (readingOf?_eq_some_iff.1 hx)
  obtain ⟨htype, -, -, rfl⟩ := readField_eq_ok_iff.1 hread
  dsimp only at hl
  split_ifs at hl
  obtain rfl := Option.some.inj hl
  exact LeafUse.isVariantUse_of_fault? htype hf

/-- The faults of the segments of a declaration, and after them those of the leaf types in them, are
in order and at different places. -/
theorem pairwise_segmentFaults {isVariant : String → Bool} {i : Nat}
    {results : List (Except Fault FieldReading)}
    (hresults : ∀ k r, results[k]? = some r → ∃ variant names s,
      Segment.read (.field i k) variant names s = r) :
    (results.filterMap faultOf? ++ results.filterMap (leafFault? isVariant)).Pairwise
      fun f g => f.Precedes g ∧ f.place ≠ g.place := by
  have hread : ∀ k r, results[k]? = some r → ∀ e, faultOf? r = some e →
      e.place = .field i k ∧ ¬e.IsVariantUse := by
    intro k r hr e he
    obtain ⟨variant, names, s, rfl⟩ := hresults k r hr
    have hfault : IsFaultOf isVariant (s.read (.field i k) variant names) e := .inl he
    exact ⟨hfault.place, not_isVariantUse_of_read (faultOf?_eq_some_iff.1 he)⟩
  have hleaf : ∀ k r, results[k]? = some r → ∀ e, leafFault? isVariant r = some e →
      e.place = .field i k ∧ e.IsVariantUse := by
    intro k r hr e he
    obtain ⟨variant, names, s, rfl⟩ := hresults k r hr
    exact ⟨(isFaultOf_of_leafFault? he).place, isVariantUse_of_leafFault? he⟩
  rw [List.pairwise_append]
  refine ⟨pairwise_filterMap_precedes False (by simpa using hread),
    pairwise_filterMap_precedes True (by simpa using hleaf), ?_⟩
  intro e he e' he'
  obtain ⟨r, hr, he⟩ := List.mem_filterMap.1 he
  obtain ⟨r', hr', he'⟩ := List.mem_filterMap.1 he'
  obtain ⟨k, hk⟩ := List.mem_iff_getElem?.1 hr
  obtain ⟨l, hl⟩ := List.mem_iff_getElem?.1 hr'
  obtain ⟨hplace, huse⟩ := hread k r hk e he
  obtain ⟨hplace', huse'⟩ := hleaf l r' hl e' he'
  refine ⟨?_, fun heq => ?_⟩
  · unfold Fault.Precedes
    rw [hplace, hplace']
    exact .inr ⟨rfl, .inl ⟨huse, huse'⟩⟩
  · -- A result has one fault at most.
    obtain rfl : k = l := by simpa [hplace, hplace'] using heq
    obtain rfl : r = r' := Option.some.inj (hk.symm.trans hl)
    obtain rfl := faultOf?_eq_some_iff.1 he
    simp [leafFault?, readingOf?] at he'

/-- The faults of the segments of a declaration are at its segments. -/
theorem exists_place_of_mem {isVariant : String → Bool} {i : Nat}
    {results : List (Except Fault FieldReading)}
    (hresults : ∀ k r, results[k]? = some r → ∃ variant names s,
      Segment.read (.field i k) variant names s = r) {f : Fault}
    (hf : f ∈ results.filterMap faultOf? ++ results.filterMap (leafFault? isVariant)) :
    ∃ k, f.place = .field i k := by
  have hfault : ∃ r ∈ results, IsFaultOf isVariant r f := by
    rcases List.mem_append.1 hf with hf | hf
    · obtain ⟨r, hr, hf⟩ := List.mem_filterMap.1 hf
      exact ⟨r, hr, .inl hf⟩
    · obtain ⟨r, hr, hf⟩ := List.mem_filterMap.1 hf
      exact ⟨r, hr, isFaultOf_of_leafFault? hf⟩
  obtain ⟨r, hr, hf⟩ := hfault
  obtain ⟨k, hk⟩ := List.mem_iff_getElem?.1 hr
  obtain ⟨variant, names, s, rfl⟩ := hresults k r hk
  exact ⟨k, hf.place⟩

/-- What is reported of a declaration with a colon: the fault of its header, those of its segments,
and those of the leaf types in them. -/
theorem faultsOf_of_colon (decls : List String) (i : Nat) {d : String} (h : ':' ∈ d.toList) :
    ∃ results : List (Except Fault FieldReading), faultsOf decls i d =
        ((Declaration.ofString d).headerFault? (headerNames decls) i
          (significant (lexFrom .start (headerText d)))
          (Declaration.colonAfter (headerText d))).toList ++
          (results.filterMap faultOf? ++ results.filterMap (leafFault? (declares decls))) ∧
      ∀ k r, results[k]? = some r → ∃ variant names s,
        Segment.read (.field i k) variant names s = r := by
  refine ⟨readSegments i ((Declaration.ofString d).name?.getD "") [] 0
    (Segment.segmentsOf (Declaration.colonAfter (headerText d))
      (Position.start.advance (headerText d ++ [':'])) (segmentTexts d)), ?_, fun k r hr => ?_⟩
  · unfold faultsOf Declaration.read
    rw [parts?_of_colon h]
    dsimp only
    rw [List.filterMap_filterMap, List.filterMap_filterMap, List.append_assoc]
    rfl
  · obtain ⟨names, s, hread⟩ := exists_read_of_getElem? hr
    exact ⟨_, names, s, by rw [← hread, Nat.zero_add]⟩

/-- What is reported of one declaration is in order and at different places. -/
theorem pairwise_faultsOf (decls : List String) (i : Nat) (d : String) :
    (faultsOf decls i d).Pairwise fun f g => f.Precedes g ∧ f.place ≠ g.place := by
  by_cases hcolon : ':' ∈ d.toList
  · obtain ⟨results, hfaults, hresults⟩ := faultsOf_of_colon decls i hcolon
    rw [hfaults, List.pairwise_append]
    refine ⟨?_, pairwise_segmentFaults hresults, fun e he e' he' => ?_⟩
    · cases (Declaration.ofString d).headerFault? (headerNames decls) i
        (significant (lexFrom .start (headerText d))) (Declaration.colonAfter (headerText d)) <;>
        simp
    · -- The header goes before all segments.
      have hplace := place_of_headerFault? (Option.mem_toList.1 he)
      obtain ⟨k, hplace'⟩ := exists_place_of_mem hresults he'
      unfold Fault.Precedes
      rw [hplace, hplace']
      exact ⟨Nat.le_refl i, by simp⟩
  · rw [faultsOf_of_not_mem hcolon]
    exact List.pairwise_singleton _ _

/-! ## All declarations -/

/-- What is reported of declarations is what is reported of each of them, one after another. -/
theorem declarationFaults_eq_flatten (decls : List String) :
    declarationFaults decls = (decls.mapIdx (faultsOf decls)).flatten := by
  rw [declarationFaults, readings, List.flatMap_def]
  refine congrArg List.flatten (List.ext_getElem (by simp) fun i hi hi' => ?_)
  simp only [List.getElem_map, List.getElem_mapIdx]
  rfl

/-- What is reported of a declaration is at the declaration or one of its segments. -/
theorem isWithin_of_mem_faultsOf {decls : List String} {i : Nat} {d : String}
    (hd : decls[i]? = some d) {f : Fault} (hf : f ∈ faultsOf decls i d) :
    f.place.IsWithin (decls.map fun d => (segmentTexts d).length) ∧ f.place.decl? = some i := by
  rcases (exists_faultsOf_iff hd f.place).1 ⟨f, hf, rfl⟩ with ⟨hplace, -⟩ | ⟨j, cs, hplace, hcs, -⟩
  · rw [hplace]
    refine ⟨?_, rfl⟩
    rw [Place.IsWithin, List.length_map]
    exact (List.getElem?_eq_some_iff.1 hd).1
  · rw [hplace]
    refine ⟨⟨(segmentTexts d).length, ?_, (List.getElem?_eq_some_iff.1 hcs).1⟩, rfl⟩
    rw [List.getElem?_map, hd, Option.map_some]

/-- The faults of declarations are in order, at different places of the declarations. -/
theorem declarationFaults_inOrder (decls : List String) :
    (declarationFaults decls).Pairwise (fun f g => f.Precedes g ∧ f.place ≠ g.place) ∧
      ∀ f ∈ declarationFaults decls,
        f.place.IsWithin (decls.map fun d => (segmentTexts d).length) := by
  rw [declarationFaults_eq_flatten]
  constructor
  · -- Inside a declaration this is known, and two declarations are told apart by their indices.
    refine pairwise_flatten_mapIdx (fun i d _ => pairwise_faultsOf decls i d) ?_
    intro i k d e hd he hik f hf g hg
    exact Fault.precedes_of_lt (isWithin_of_mem_faultsOf hd hf).2 (isWithin_of_mem_faultsOf he hg).2
      hik
  · intro f hf
    obtain ⟨faults, hfaults, hf⟩ := List.mem_flatten.1 hf
    obtain ⟨i, hi, rfl⟩ := List.mem_mapIdx.1 hfaults
    exact (isWithin_of_mem_faultsOf (List.getElem?_eq_getElem hi) hf).1

/-! ## The check of a schema -/

/-- The fault of a variant is about that variant. -/
theorem Schema.place_of_variantFault? {s : Schema} {i : Nat} {v : Variant} {f : Fault}
    (h : s.variantFault? i v = some f) : f.place = .declaration i := by
  unfold Schema.variantFault? at h
  split at h
  · rw [← Option.some.inj h]
  · dsimp only at h
    split_ifs at h
    rw [← Option.some.inj h]

/-- A fault of a field is about the place that is asked for. -/
theorem place_of_fieldFault? {isVariant : String → Bool} {place : Place} {variant : String}
    {earlier : List (String × String)} {ident : String} {g : Field} {f : Fault}
    (h : fieldFault? isVariant place variant earlier ident g = some f) : f.place = place := by
  unfold fieldFault? at h
  dsimp only at h
  split at h
  · rw [← Option.some.inj h]
  · split at h
    · rw [← Option.some.inj h]
    · split at h
      · rw [← Option.some.inj h]
      · exact absurd h (by simp)

/-- The faults of the fields of a variant are about fields of that variant, from first to last. -/
theorem place_of_mem_fieldFaults {isVariant : String → Bool} {ident : String → String} {i : Nat}
    {variant : String} {earlier : List (String × String)} {j : Nat} {fields : List Field}
    {f : Fault} (h : f ∈ fieldFaults isVariant ident i variant earlier j fields) :
    ∃ k < fields.length, f.place = .field i (j + k) := by
  induction fields generalizing earlier j with
  | nil => exact absurd h List.not_mem_nil
  | cons g fields ih =>
    have hnext : ∀ earlier', f ∈ fieldFaults isVariant ident i variant earlier' (j + 1) fields →
        ∃ k < (g :: fields).length, f.place = .field i (j + k) := by
      intro earlier' hmem
      obtain ⟨k, hk, hplace⟩ := ih hmem
      exact ⟨k + 1, Nat.succ_lt_succ hk, by rw [hplace, Nat.add_assoc, Nat.add_comm 1]⟩
    rw [fieldFaults] at h
    split at h
    · next fault hfault =>
      rcases List.mem_cons.1 h with rfl | h
      · exact ⟨0, Nat.succ_pos _, place_of_fieldFault? hfault⟩
      · exact hnext _ h
    · exact hnext _ h

/-- No two faults of the fields of a variant are about the same field. -/
theorem pairwise_fieldFaults (isVariant : String → Bool) (ident : String → String) (i : Nat)
    (variant : String) (earlier : List (String × String)) (j : Nat) (fields : List Field) :
    (fieldFaults isVariant ident i variant earlier j fields).Pairwise
      fun f g => f.place ≠ g.place := by
  induction fields generalizing earlier j with
  | nil => exact .nil
  | cons g fields ih =>
    rw [fieldFaults]
    split
    · next fault hfault =>
      -- The faults after this one are about later fields.
      refine List.pairwise_cons.2 ⟨fun f hf => ?_, ih _ _⟩
      obtain ⟨k, -, hplace⟩ := place_of_mem_fieldFaults hf
      rw [place_of_fieldFault? hfault, hplace]
      have hlt : j ≠ j + 1 + k := by omega
      simpa using hlt
    · exact ih _ _

/-- The faults of the variants and their fields are at different places of the schema. -/
theorem Schema.faults_apart (s : Schema) (exported : Bool) :
    (s.faults exported).Pairwise (fun f g => f.place ≠ g.place) ∧
      ∀ f ∈ s.faults exported, f.place.IsWithin (s.variants.map (·.fields.length)) := by
  have hvariant : ∀ {i : Nat} {v : Variant} {f : Fault}, f ∈ (s.variantFault? i v).toList →
      f.place = .declaration i := fun hf =>
    Schema.place_of_variantFault? (Option.mem_toList.1 hf)
  have hfield : ∀ {i : Nat} {v : Variant} {f : Fault},
      f ∈ fieldFaults s.isVariant (fieldIdent exported) i v.name [] 0 v.fields →
      ∃ j < v.fields.length, f.place = .field i j := by
    intro i v f hf
    obtain ⟨j, hj, hplace⟩ := place_of_mem_fieldFaults hf
    exact ⟨j, hj, by rw [hplace, Nat.zero_add]⟩
  rw [Schema.faults, Schema.check, Schema.checkAs_eq]
  constructor
  · -- Variants come first and have faults of their own, and fields differ by variant and index.
    refine List.pairwise_append.2 ⟨pairwise_flatten_mapIdx (fun i v _ => ?_) ?_,
      pairwise_flatten_mapIdx (fun i v _ => pairwise_fieldFaults _ _ _ _ _ _ _) ?_, ?_⟩
    · cases s.variantFault? i v <;> simp
    · intro i k v w _ _ hik f hf g hg
      rw [hvariant hf, hvariant hg]
      simp [Nat.ne_of_lt hik]
    · intro i k v w _ _ hik f hf g hg
      obtain ⟨m, -, hm⟩ := hfield hf
      obtain ⟨n, -, hn⟩ := hfield hg
      simp [hm, hn, Nat.ne_of_lt hik]
    · intro f hf g hg
      obtain ⟨fs, hfs, hf⟩ := List.mem_flatten.1 hf
      obtain ⟨gs, hgs, hg⟩ := List.mem_flatten.1 hg
      obtain ⟨i, hi, rfl⟩ := List.mem_mapIdx.1 hfs
      obtain ⟨k, hk, rfl⟩ := List.mem_mapIdx.1 hgs
      obtain ⟨n, -, hn⟩ := hfield hg
      simp [hvariant hf, hn]
  · intro f hf
    rcases List.mem_append.1 hf with hf | hf
    · obtain ⟨fs, hfs, hf⟩ := List.mem_flatten.1 hf
      obtain ⟨i, hi, rfl⟩ := List.mem_mapIdx.1 hfs
      rw [hvariant hf, Place.IsWithin, List.length_map]
      exact hi
    · obtain ⟨fs, hfs, hf⟩ := List.mem_flatten.1 hf
      obtain ⟨i, hi, rfl⟩ := List.mem_mapIdx.1 hfs
      obtain ⟨j, hj, hplace⟩ := hfield hf
      rw [hplace]
      exact ⟨_, by rw [List.getElem?_map, List.getElem?_eq_getElem hi, Option.map_some], hj⟩

/-! ## Reported lists -/

/-- Faults at different places have different paths. -/
theorem nodup_path {faults : List Fault} (h : (faults.map (·.place)).Nodup) :
    (faults.map (·.place.path)).Nodup := by
  have hpath : faults.map (·.place.path) = (faults.map (·.place)).map Place.path := by
    rw [List.map_map]
    rfl
  rw [hpath]
  exact h.map Place.path_injective

/-- Reported lists of faults are in order. Reading declarations without stopping reports the fault
of having none, or faults that are at places of the declarations, come in the order of
`Fault.Precedes`, and are all at different places with different paths. Where no text is generated
for a schema with variants because of faults, these are at places of the schema, which are all
different, and so are their paths. -/
theorem faults_inOrder :
    (∀ decls faults, parse false decls = .error faults →
      decls = [] ∧ faults = [noDeclarations] ∨
        (∀ f ∈ faults, f.place.IsWithin (decls.map fun d => (segmentTexts d).length)) ∧
          faults.Pairwise Fault.Precedes ∧ (faults.map (·.place)).Nodup ∧
          (faults.map (·.place.path)).Nodup) ∧
    ∀ (o : Options) (s : Schema) faults, s.variants ≠ [] →
      generateSchema o (some s) = .error (.faulty faults) →
        (∀ f ∈ faults, f.place.IsWithin (s.variants.map (·.fields.length))) ∧
          (faults.map (·.place)).Nodup ∧ (faults.map (·.place.path)).Nodup := by
  constructor
  · intro decls faults h
    rcases parse_eq_error_iff.1 h with hnone | ⟨-, -, rfl⟩
    · exact .inl hnone
    · rw [if_neg Bool.false_ne_true]
      obtain ⟨hpairwise, hwithin⟩ := declarationFaults_inOrder decls
      have hnodup : ((declarationFaults decls).map (·.place)).Nodup :=
        List.pairwise_map.2 (hpairwise.imp And.right)
      exact .inr ⟨hwithin, hpairwise.imp And.left, hnodup, nodup_path hnodup⟩
  · intro o s faults hne h
    obtain ⟨hpairwise, hwithin⟩ := s.faults_apart o.exportFields
    rcases generateSchema_eq_faulty h with ⟨hnone, -⟩ | ⟨s', hs, rfl, -⟩
    · exact absurd (hnone s rfl) hne
    · obtain rfl : s = s' := by simpa using hs
      have hsublist := s.check_sublist o.exportFields o.failFast
      have hnodup : ((s.check o.exportFields o.failFast).map (·.place)).Nodup :=
        List.pairwise_map.2 (hpairwise.sublist hsublist)
      exact ⟨fun f hf => hwithin f (hsublist.subset hf), hnodup, nodup_path hnodup⟩

/-- Leaf types that refer to variants before and after other faults of the declarations, and a
schema whose variants and fields have faults. -/
theorem faults_inOrder_leaf :
    let decls := ["Add : Mul x, Expr", "Mul : Add y", ": 1 x"]
    let o : Options := { exportFields := true }
    let s : Schema := ⟨[⟨"Add", [⟨"Add", "l", .leaf⟩, ⟨"T", "r", .leaf⟩, ⟨"T", "R", .leaf⟩]⟩,
      ⟨"1", []⟩, ⟨"Add", []⟩]⟩
    (∃ faults, parse false decls = .error faults ∧
      faults.map (·.place) =
        [.field 0 1, .field 0 0, .field 1 0, .declaration 2, .field 2 0] ∧
      faults.Pairwise Fault.Precedes ∧ (faults.map (·.place.path)).Nodup) ∧
    ∃ faults, generateSchema o (some s) = .error (.faulty faults) ∧
      faults.map (·.place) = [.declaration 1, .declaration 2, .field 0 0, .field 0 2] ∧
      (faults.map (·.place.path)).Nodup := by
  intro decls o s
  have hplaces : (reportedFaults decls).map (·.place) =
      [.field 0 1, .field 0 0, .field 1 0, .declaration 2, .field 2 0] := by
    rw [reportedFaults_eq (by simp [decls])]
    decide +kernel
  have hcheck : (s.check o.exportFields o.failFast).map (·.place) =
      [.declaration 1, .declaration 2, .field 0 0, .field 0 2] := by
    decide +kernel
  have hschema : generateSchema o (some s) =
      .error (.faulty (s.check o.exportFields o.failFast)) := by
    decide +kernel
  constructor
  · unfold reportedFaults at hplaces
    cases hparse : parse false decls with
    | ok s => simp [hparse] at hplaces
    | error faults =>
      rw [hparse] at hplaces
      rcases faults_inOrder.1 decls faults hparse with ⟨hnone, -⟩ | ⟨-, hpairwise, -, hnodup⟩
      · simp [decls] at hnone
      · exact ⟨faults, rfl, hplaces, hpairwise, hnodup⟩
  · exact ⟨_, hschema, hcheck, (faults_inOrder.2 o s _ (by simp [s]) hschema).2.2⟩

end NodeFamily
