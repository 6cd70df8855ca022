import NodeFamily.Proofs.Pieces
import NodeFamily.Proofs.Rounds

/-!
# Legal schemas

The rules for names and types as conditions, apart from the checks that look for their faults. A
type is the node type, or a name or a name in a package after at most one star, which is none of the
types that the emitted file declares (`IsLegalType`). `Schema.IsLegal` puts the rules for variants
and fields together, and `Schema.faults_eq_nil_iff` shows that the check of a schema reports nothing
exactly on legal schemas.
-/

namespace NodeFamily

/-! ## Names -/

/-- A name has the shape of an identifier. -/
theorem hasIdentifierShape_of_isName {n : String} (h : isName n = true) :
    hasIdentifierShape n.toList = true := by
  simp only [isName, isIdentifier, Bool.and_eq_true] at h
  exact h.1.1

/-- A character that cannot stand in an identifier does not stand in a name. -/
theorem not_mem_of_isName {n : String} (h : isName n = true) {c : Char}
    (hc : continuesIdentifier c = false) : c ∉ n.toList := by
  have hshape := hasIdentifierShape_of_isName h
  cases hn : n.toList with
  | nil => exact List.not_mem_nil
  | cons d rest =>
    rw [hn] at hshape
    obtain ⟨hd, hrest⟩ := Bool.and_eq_true_iff.1 hshape
    intro hm
    have hcont : continuesIdentifier c = true := by
      rcases List.mem_cons.1 hm with rfl | hm
      · exact Bool.or_eq_true_iff.2 (.inl hd)
      · exact List.all_eq_true.1 hrest c hm
    rw [hcont] at hc
    exact absurd hc (by decide)

/-- A variant name without a problem is a name that the emitted file does not use itself. -/
theorem variantProblem?_eq_none_iff {n : String} :
    variantProblem? n = none ↔ isName n = true ∧ n ≠ nodeName ∧ n ≠ visitorName := by
  unfold variantProblem?
  split_ifs with hname hreserved
  · simp_all
  · rcases hreserved with rfl | rfl <;> simp
  · simp_all

/-- A field name without a problem is a name other than the variant's, and is not emitted as the
accepting method. -/
theorem fieldProblem?_eq_none_iff {n ident variant : String} :
    fieldProblem? n ident variant = none ↔
      isName n = true ∧ n ≠ variant ∧ ident ≠ acceptName := by
  unfold fieldProblem?
  split_ifs with hname hrepeats hclashes
  · simp_all
  · simp_all
  · simp_all
  · simp_all

/-! ## Types -/

/-- A name, or a name in a package. -/
inductive IsTypeBase : String → Prop
  /-- A name alone. -/
  | name {n : String} (hn : isName n = true) : IsTypeBase n
  /-- A name with the package before it. -/
  | member {p n : String} (hp : isName p = true) (hn : isName n = true) :
      IsTypeBase (p ++ "." ++ n)

/-- What a field type may be in a schema with the given variant names: the node type itself, or a
name after at most one star that is neither of the two generic types nor a variant. -/
def IsLegalType (names : List String) (t : String) : Prop :=
  t = nodeName ∨ ∃ star base, (star = "" ∨ star = "*") ∧ t = star ++ base ∧ IsTypeBase base ∧
    base ≠ nodeName ∧ base ≠ visitorName ∧ base ∉ names

/-- A type base does not begin with a star. -/
theorem IsTypeBase.head?_ne_star {base : String} (h : IsTypeBase base) :
    base.toList.head? ≠ some '*' := by
  have hstar : continuesIdentifier '*' = false := by decide
  intro hhead
  cases h with
  | name hn => exact not_mem_of_isName hn hstar (List.mem_of_mem_head? hhead)
  | @member p n hp hn =>
    have hp' := not_mem_of_isName hp hstar
    cases hpl : p.toList with
    | nil =>
      have := hasIdentifierShape_of_isName hp
      rw [hpl] at this
      exact absurd this (by decide)
    | cons c rest =>
      rw [hpl] at hp'
      simp only [String.toList_append, hpl, List.cons_append, List.head?_cons, Option.some.injEq]
        at hhead
      exact hp' (hhead ▸ List.mem_cons_self)

/-- The star is all that the base of a type lacks. -/
theorem typeBase_append {star base : String} (hstar : star = "" ∨ star = "*")
    (hbase : IsTypeBase base) : typeBase (star ++ base) = base := by
  have hhead := hbase.head?_ne_star
  rcases hstar with rfl | rfl
  · rw [String.empty_append]
    unfold typeBase
    split
    · next rest heq => exact absurd (by rw [heq]; rfl) hhead
    · rfl
  · simp [typeBase]

/-- A type is its base after at most one star. -/
theorem exists_star (t : String) :
    ∃ star, (star = "" ∨ star = "*") ∧ t = star ++ typeBase t := by
  unfold typeBase
  split
  · next rest heq =>
    refine ⟨"*", .inr rfl, ?_⟩
    rw [← String.toList_inj, heq]
    simp
  · exact ⟨"", .inl rfl, by simp⟩

/-- The base of a type name is a name, or a name in a package. -/
theorem isTypeName_iff {t : String} : isTypeName t = true ↔ IsTypeBase (typeBase t) := by
  have hdot : continuesIdentifier '.' = false := by decide
  unfold isTypeName
  generalize typeBase t = base
  simp only [Bool.and_eq_true, decide_eq_true_eq, List.all_eq_true]
  constructor
  · rintro ⟨hlen, hall⟩
    -- The base is its pieces with dots between them, and there are one or two of them.
    have hjoin := Text.intercalate_cutAt '.' base.toList
    rcases hcut : Text.cutAt '.' base.toList with _ | ⟨a, _ | ⟨b, _ | ⟨c, rest⟩⟩⟩
    · exact absurd hcut (Text.cutAt_ne_nil _ _)
    · rw [hcut] at hall hjoin
      have hbase : base = String.ofList a := by
        rw [← String.toList_inj, ← hjoin]
        simp
      rw [hbase]
      exact .name (hall a (by simp))
    · rw [hcut] at hall hjoin
      have hbase : base = String.ofList a ++ "." ++ String.ofList b := by
        rw [← String.toList_inj, ← hjoin]
        simp [List.intercalate]
      rw [hbase]
      exact .member (hall a (by simp)) (hall b (by simp))
    · rw [hcut] at hlen
      simp at hlen
  · rintro (hn | ⟨hp, hn⟩)
    · rw [Text.cutAt_of_not_mem (not_mem_of_isName hn hdot)]
      simpa using hn
    · rw [String.toList_append, String.toList_append, show ".".toList = ['.'] from rfl,
        List.append_assoc, List.singleton_append,
        Text.cutAt_append_cons (not_mem_of_isName hp hdot),
        Text.cutAt_of_not_mem (not_mem_of_isName hn hdot)]
      simp [hp, hn]

/-- A type without a problem is legal, when `isVariant` tells the given names. -/
theorem typeProblem?_eq_none_iff {isVariant : String → Bool} {names : List String}
    (h : ∀ n, isVariant n = true ↔ n ∈ names) {t : String} :
    typeProblem? isVariant t = none ↔ IsLegalType names t := by
  unfold typeProblem?
  by_cases hnode : t = nodeName
  · simp [hnode, IsLegalType]
  by_cases htype : isTypeName t = true
  · have hbase := isTypeName_iff.1 htype
    -- Star and base can be told from a type name, so only the base is left to be checked.
    have hlegal : IsLegalType names t ↔
        typeBase t ≠ nodeName ∧ typeBase t ≠ visitorName ∧ typeBase t ∉ names := by
      constructor
      · rintro (rfl | ⟨star, base, hstar, rfl, hb, hne⟩)
        · exact absurd rfl hnode
        · rwa [typeBase_append hstar hb]
      · intro hne
        obtain ⟨star, hstar, heq⟩ := exists_star t
        exact .inr ⟨star, typeBase t, hstar, heq, hbase, hne⟩
    rw [hlegal, ← h]
    simp only [hnode, htype, if_false, Bool.not_true, Bool.false_eq_true]
    split_ifs with hgeneric hvariant
    · rcases hgeneric with hg | hg <;> simp [hg]
    · simp [hvariant]
    · simp_all
  · simp only [hnode, htype, if_false, Bool.not_false, if_true, reduceCtorEq, false_iff]
    rintro (rfl | ⟨star, base, hstar, rfl, hb, -⟩)
    · exact hnode rfl
    · exact htype (isTypeName_iff.2 (by rwa [typeBase_append hstar hb]))

/-! ## Schemas -/

/-- A type without a problem apart from the variants is legal among none. -/
theorem typeProblem?_eq_none_iff_alone {t : String} :
    typeProblem? (fun _ => false) t = none ↔ IsLegalType [] t :=
  typeProblem?_eq_none_iff (by simp)

/-- What a field of a variant may be in a schema with the given variant names. -/
structure Field.IsLegal (exported : Bool) (names : List String) (variant : String) (f : Field) :
    Prop where
  /-- The type is legal. -/
  type : IsLegalType names f.type
  /-- The name can name something. -/
  name : isName f.name = true
  /-- The name is not that of the variant. -/
  ne_variant : f.name ≠ variant
  /-- The field is not emitted as the accepting method. -/
  ne_accept : fieldIdent exported f.name ≠ acceptName

/-- What a variant may be in a schema with the given variant names. -/
structure Variant.IsLegal (exported : Bool) (names : List String) (v : Variant) : Prop where
  /-- The name can name something. -/
  name : isName v.name = true
  /-- The name is not that of the node type. -/
  ne_node : v.name ≠ nodeName
  /-- The name is not that of the visitor type. -/
  ne_visitor : v.name ≠ visitorName
  /-- The fields are legal. -/
  fields : ∀ f ∈ v.fields, f.IsLegal exported names v.name
  /-- The fields are emitted under different identifiers. -/
  nodup : (v.fields.map fun f => fieldIdent exported f.name).Nodup

/-- What a schema may be whose fields are emitted in title case when `exported`, and else under
their own names. -/
structure Schema.IsLegal (exported : Bool) (s : Schema) : Prop where
  /-- The variants are legal. -/
  variants : ∀ v ∈ s.variants, v.IsLegal exported s.names
  /-- The variants have different names. -/
  nodup : s.names.Nodup

/-- A list has no repetition exactly when every element is first found at its own index. -/
theorem nodup_iff_le_idxOf {α : Type} [BEq α] [LawfulBEq α] {l : List α} :
    l.Nodup ↔ ∀ i (h : i < l.length), i ≤ l.idxOf l[i] := by
  constructor
  · intro hl i h
    rw [hl.idxOf_getElem i h]
  · intro hidx
    have hfirst : ∀ i (h : i < l.length), l.idxOf l[i] ≤ i := by
      intro i h
      by_contra hlt
      have := List.not_of_lt_findIdx (Nat.not_le.1 hlt)
      simp at this
    -- Of two equal elements the second one would be found at the place of the first one.
    rw [List.nodup_iff_pairwise_ne, List.pairwise_iff_getElem]
    intro i j hi hj hij heq
    have hi' := hfirst i hi
    have hj' := hidx j hj
    rw [heq] at hi'
    omega

/-- No faults come from a list of variants exactly when none comes from a variant. -/
theorem flatten_mapIdx_eq_nil_iff {α β : Type} {f : Nat → α → List β} {l : List α} :
    (l.mapIdx f).flatten = [] ↔ ∀ i (h : i < l.length), f i l[i] = [] := by
  simp only [List.flatten_eq_nil_iff, List.mem_mapIdx]
  constructor
  · intro h i hi
    exact h _ ⟨i, hi, rfl⟩
  · rintro h _ ⟨i, hi, rfl⟩
    exact h i hi

/-- The name of a variant is without fault when it is legal and no earlier variant has it. -/
theorem Schema.variantFault?_eq_none_iff {s : Schema} {i : Nat} {v : Variant} :
    s.variantFault? i v = none ↔ variantProblem? v.name = none ∧ i ≤ s.names.idxOf v.name := by
  unfold Schema.variantFault?
  split
  · next p hp => simp [hp]
  · next hp =>
    dsimp only
    split_ifs with hfirst
    · simp [hp, hfirst]
    · simpa [hp] using hfirst

/-- A field is without fault when its type and name are and no earlier field is emitted so. -/
theorem fieldFault?_eq_none_iff {isVariant : String → Bool} {place : Place} {variant : String}
    {earlier : List (String × String)} {ident : String} {f : Field} :
    fieldFault? isVariant place variant earlier ident f = none ↔
      typeProblem? isVariant f.type = none ∧ fieldProblem? f.name ident variant = none ∧
        ident ∉ earlier.map Prod.fst := by
  have hlookup : earlier.lookup ident = none ↔ ident ∉ earlier.map Prod.fst := by
    simp only [List.lookup_eq_none_iff, bne_iff_ne, ne_eq, List.mem_map, not_exists, not_and]
    exact ⟨fun h p hp heq => h p hp heq.symm, fun h p hp heq => h p hp heq.symm⟩
  rw [← hlookup]
  unfold fieldFault?
  dsimp only
  split
  · next p hp => simp [hp]
  · next hp =>
    split
    · next q hq => simp [hp, hq]
    · next hq =>
      split
      · next other ho => simp [ho]
      · next ho => simp [hp, hq, ho]

/-- Names are all different and none is taken exactly when the first one is not taken and the others
are so once it is. -/
theorem fresh_cons_iff {α : Type} {key : α → String} {x : α} {xs : List α} {taken : List String} :
    ((x :: xs).map key).Nodup ∧ (∀ y ∈ x :: xs, key y ∉ taken) ↔
      key x ∉ taken ∧ (xs.map key).Nodup ∧ ∀ y ∈ xs, key y ∉ key x :: taken := by
  rw [List.map_cons, List.nodup_cons, List.forall_mem_cons]
  constructor
  · rintro ⟨⟨hfresh, hnodup⟩, hx, hxs⟩
    refine ⟨hx, hnodup, fun y hy hm => ?_⟩
    rcases List.mem_cons.1 hm with heq | hm
    · exact hfresh (List.mem_map.2 ⟨y, hy, heq⟩)
    · exact hxs y hy hm
  · rintro ⟨hx, hnodup, hxs⟩
    refine ⟨⟨fun hm => ?_, hnodup⟩, hx, fun y hy hm => hxs y hy (List.mem_cons_of_mem _ hm)⟩
    obtain ⟨y, hy, heq⟩ := List.mem_map.1 hm
    exact hxs y hy (heq ▸ List.mem_cons_self)

/-- The faults of the fields of variant `i` from field `j` on. -/
def fieldFaults (isVariant : String → Bool) (ident : String → String) (i : Nat) (variant : String)
    (earlier : List (String × String)) (j : Nat) : List Field → List Fault
  | [] => []
  | f :: rest =>
    match fieldFault? isVariant (.field i j) variant earlier (ident f.name) f with
    | some fault => fault :: fieldFaults isVariant ident i variant earlier (j + 1) rest
    | none =>
      fieldFaults isVariant ident i variant ((ident f.name, f.name) :: earlier) (j + 1) rest

/-- Checking fields one after another adds their faults. -/
theorem FieldCheck.found_foldl_add (isVariant : String → Bool) (ident : String → String) (i : Nat)
    (variant : String) (c : FieldCheck) (j : Nat) (fs : List Field) :
    ((fs.zipIdx j).foldl (FieldCheck.add isVariant ident i variant) c).found =
      c.found ++ fieldFaults isVariant ident i variant c.idents j fs := by
  induction fs generalizing c j with
  | nil => exact (List.append_nil _).symm
  | cons f fs ih =>
    rw [List.zipIdx_cons, List.foldl_cons, ih, add, fieldFaults]
    dsimp only
    cases fieldFault? isVariant (.field i j) variant c.idents (ident f.name) f with
    | some fault => exact List.append_assoc _ _ _
    | none => rfl

/-- A check that does not stop reports the faults of the variant names and then those of the fields,
variant by variant. -/
theorem Schema.checkAs_eq (s : Schema) (ident : String → String) :
    s.checkAs ident false =
      (s.variants.mapIdx fun i v => (s.variantFault? i v).toList).flatten ++
        (s.variants.mapIdx fun i v =>
          fieldFaults s.isVariant ident i v.name [] 0 v.fields).flatten := by
  have hfields : s.checkVariantFields ident false = fun found item =>
      found ++ fieldFaults s.isVariant ident item.2 item.1.name [] 0 item.1.fields := by
    funext found item
    rw [checkVariantFields, inTurn_false, FieldCheck.found_foldl_add]
  unfold checkAs checkVariants checkFields
  dsimp only
  rw [stops_false, if_neg Bool.false_ne_true, inTurn_false, inTurn_false, hfields,
    List.foldl_append_eq_append, List.foldl_append_eq_append, List.nil_append,
    List.mapIdx_eq_zipIdx_map, List.mapIdx_eq_zipIdx_map]

/-- The fields of a variant are without fault when each one is and they are emitted under
different identifiers, which no earlier field has. -/
theorem fieldFaults_eq_nil_iff {isVariant : String → Bool} {ident : String → String} {i : Nat}
    {variant : String} {earlier : List (String × String)} {j : Nat} {fs : List Field} :
    fieldFaults isVariant ident i variant earlier j fs = [] ↔
      (∀ f ∈ fs, typeProblem? isVariant f.type = none ∧
        fieldProblem? f.name (ident f.name) variant = none) ∧
      (fs.map fun f => ident f.name).Nodup ∧
      ∀ f ∈ fs, ident f.name ∉ earlier.map Prod.fst := by
  induction fs generalizing earlier j with
  | nil => simp [fieldFaults]
  | cons f fs ih =>
    rw [fieldFaults]
    cases hf : fieldFault? isVariant (.field i j) variant earlier (ident f.name) f with
    | some fault =>
      simp only [reduceCtorEq, false_iff]
      rintro ⟨hproblems, -, hearlier⟩
      obtain ⟨htype, hname⟩ := hproblems f List.mem_cons_self
      rw [fieldFault?_eq_none_iff.2 ⟨htype, hname, hearlier f List.mem_cons_self⟩] at hf
      exact absurd hf (by simp)
    | none =>
      -- The identifier of `f` counts as taken for the fields after it.
      obtain ⟨htype, hname, hnew⟩ := fieldFault?_eq_none_iff.1 hf
      simp only
      rw [ih, fresh_cons_iff, List.forall_mem_cons, List.map_cons]
      constructor
      · rintro ⟨hproblems, hfresh⟩
        exact ⟨⟨⟨htype, hname⟩, hproblems⟩, hnew, hfresh⟩
      · rintro ⟨⟨-, hproblems⟩, -, hfresh⟩
        exact ⟨hproblems, hfresh⟩

/-- A schema tells a legal variant name by its list of names when they are all legal. -/
theorem Schema.isVariant_iff {s : Schema} (h : ∀ v ∈ s.variants, variantProblem? v.name = none)
    (n : String) : s.isVariant n = true ↔ n ∈ s.names := by
  unfold Schema.isVariant
  simp only [Bool.and_eq_true, List.contains_iff_mem, Option.isNone_iff_eq_none,
    and_iff_left_iff_imp]
  intro hn
  obtain ⟨v, hv, rfl⟩ := List.mem_map.1 hn
  exact h v hv

/-- The variant names are without fault when each one is legal and they are all different. -/
theorem Schema.variantFaults_eq_nil_iff {s : Schema} :
    (s.variants.mapIdx fun i v => (s.variantFault? i v).toList).flatten = [] ↔
      (∀ v ∈ s.variants, variantProblem? v.name = none) ∧ s.names.Nodup := by
  have hlength : s.names.length = s.variants.length := by simp [Schema.names]
  have hname : ∀ i (h : i < s.variants.length), s.names[i] = s.variants[i].name := by
    simp [Schema.names]
  rw [flatten_mapIdx_eq_nil_iff, nodup_iff_le_idxOf, List.forall_mem_iff_forall_getElem]
  simp only [Option.toList_eq_nil_iff, Schema.variantFault?_eq_none_iff]
  constructor
  · intro h
    refine ⟨fun i hi => (h i hi).1, fun i hi => ?_⟩
    rw [hname i (hlength ▸ hi)]
    exact (h i (hlength ▸ hi)).2
  · rintro ⟨hproblem, hidx⟩ i hi
    have hfirst := hidx i (hlength ▸ hi)
    rw [hname i hi] at hfirst
    exact ⟨hproblem i hi, hfirst⟩

/-- The check of a schema reports nothing exactly on legal schemas. -/
theorem Schema.faults_eq_nil_iff {s : Schema} {exported : Bool} :
    s.faults exported = [] ↔ s.IsLegal exported := by
  rw [Schema.faults, Schema.check, Schema.checkAs_eq, List.append_eq_nil_iff,
    Schema.variantFaults_eq_nil_iff, flatten_mapIdx_eq_nil_iff]
  simp only [fieldFaults_eq_nil_iff, List.map_nil, List.not_mem_nil, not_false_iff, implies_true,
    and_true]
  constructor
  · rintro ⟨⟨hproblem, hnodup⟩, hfields⟩
    refine ⟨fun v hv => ?_, hnodup⟩
    obtain ⟨i, hi, rfl⟩ := List.mem_iff_getElem.1 hv
    obtain ⟨hname, hnode, hvisitor⟩ := variantProblem?_eq_none_iff.1 (hproblem _ hv)
    refine ⟨hname, hnode, hvisitor, fun f hf => ?_, (hfields i hi).2⟩
    obtain ⟨htype, hfield⟩ := (hfields i hi).1 f hf
    obtain ⟨hfname, hvariant, haccept⟩ := fieldProblem?_eq_none_iff.1 hfield
    exact ⟨(typeProblem?_eq_none_iff (Schema.isVariant_iff hproblem)).1 htype, hfname, hvariant,
      haccept⟩
  · intro hlegal
    -- The names have to be legal first, for the check of types to know all variants by them.
    have hproblem : ∀ v ∈ s.variants, variantProblem? v.name = none := fun v hv =>
      variantProblem?_eq_none_iff.2 ⟨(hlegal.variants v hv).name, (hlegal.variants v hv).ne_node,
        (hlegal.variants v hv).ne_visitor⟩
    refine ⟨⟨hproblem, hlegal.nodup⟩, fun i hi => ?_⟩
    have hv := hlegal.variants s.variants[i] (List.getElem_mem hi)
    refine ⟨fun f hf => ⟨?_, ?_⟩, hv.nodup⟩
    · exact (typeProblem?_eq_none_iff (Schema.isVariant_iff hproblem)).2 (hv.fields f hf).type
    · exact fieldProblem?_eq_none_iff.2
        ⟨(hv.fields f hf).name, (hv.fields f hf).ne_variant, (hv.fields f hf).ne_accept⟩

end NodeFamily
