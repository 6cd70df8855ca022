import Mathlib.Data.List.Nodup
import NodeFamily.Generation
import NodeFamily.Proofs.Legality

/-!
# The names that a file declares

An emitted file declares the two generic types, a struct for each variant and a constructor for each
variant at its top level. The check of a schema keeps the names of the types apart, but not those of
the constructors, which it never looks at: a variant called like the constructor of another passes.
`declaredNames_nodup_iff` shows that this is the only way in which a checked schema can declare a
name twice, and `declaredNames_newX` is the smallest schema that does.
-/

namespace NodeFamily.Emission

/-- The names that a file declares at its top level. -/
def SourceFile.declaredNames (f : SourceFile) : List String :=
  [nodeName, visitorName] ++ f.variants.map (·.name) ++
    f.variants.map VariantSource.constructorName

/-- Names with something before them are different when the names are. -/
theorem nodup_constructorNames {vs : List VariantSource} (h : (vs.map (·.name)).Nodup) :
    (vs.map VariantSource.constructorName).Nodup := by
  have hmap : vs.map VariantSource.constructorName = (vs.map (·.name)).map ("New" ++ ·) := by
    simp [VariantSource.constructorName]
  rw [hmap]
  exact h.map fun _ _ heq => (String.append_right_inj _).1 heq

/-- A constructor is not called like a generic type. -/
theorem constructorName_ne_generic {n : String} (hn : n = nodeName ∨ n = visitorName)
    (v : VariantSource) : v.constructorName ≠ n := by
  have hhead : v.constructorName.toList.head? = some 'N' := by
    simp [VariantSource.constructorName]
  intro heq
  rw [heq] at hhead
  rcases hn with rfl | rfl <;> exact absurd hhead (by decide)

/-- The names of the variants are written as the schema has them. -/
theorem SourceFile.map_name_variants (f : SourceFile) :
    f.variants.map (·.name) = f.schema.names := by
  simp [SourceFile.variants, VariantSource.of, Schema.names]

/-- The file of a checked schema declares a name twice exactly when a variant is called like the
constructor of a variant. -/
theorem declaredNames_nodup_iff (f : SourceFile) (h : f.schema.faults f.exportFields = []) :
    f.declaredNames.Nodup ↔ ∀ v ∈ f.variants, ∀ w ∈ f.variants, w.name ≠ v.constructorName := by
  have hlegal := Schema.faults_eq_nil_iff.1 h
  have hnames : (f.variants.map (·.name)).Nodup := by
    rw [f.map_name_variants]
    exact hlegal.nodup
  have hgeneric : ∀ n ∈ [nodeName, visitorName], n ∉ f.variants.map (·.name) := by
    intro n hn hm
    rw [f.map_name_variants] at hm
    obtain ⟨v, hv, rfl⟩ := List.mem_map.1 hm
    obtain ⟨-, hnode, hvisitor, -⟩ := hlegal.variants v hv
    simp [hnode, hvisitor] at hn
  have htypes : ([nodeName, visitorName] ++ f.variants.map (·.name)).Nodup := by
    refine List.nodup_append.2 ⟨by decide, hnames, fun a ha b hb heq => ?_⟩
    exact hgeneric a ha (heq ▸ hb)
  -- Types are apart from one another and so are constructors, which leaves one against the other.
  unfold SourceFile.declaredNames
  rw [List.nodup_append]
  constructor
  · rintro ⟨-, -, hdisjoint⟩ v hv w hw
    refine hdisjoint _ (List.mem_append_right _ (List.mem_map_of_mem hw)) _ ?_
    exact List.mem_map_of_mem hv
  · intro hclash
    refine ⟨htypes, nodup_constructorNames hnames, fun a ha b hb heq => ?_⟩
    obtain ⟨v, hv, rfl⟩ := List.mem_map.1 hb
    rcases List.mem_append.1 ha with ha | ha
    · exact constructorName_ne_generic (by simpa using ha) v heq.symm
    · obtain ⟨w, hw, rfl⟩ := List.mem_map.1 ha
      exact hclash v hv w hw heq

/-- Two variants that get along. -/
theorem declaredNames_nodup_binary :
    (SourceFile.mk "ast" "" [] false
      ⟨[⟨"Binary", [⟨"Expr", "left", .recursive⟩]⟩, ⟨"Unary", []⟩]⟩).declaredNames.Nodup :=
  (declaredNames_nodup_iff _ (by decide +kernel)).2 (by decide +kernel)

/-- A variant called like the constructor of the one before it: the schema is checked without fault,
a file is generated for it, and in this file one line declares the name as a type and another one as
a function. -/
theorem declaredNames_newX :
    let s : Schema := ⟨[⟨"X", [⟨"Token", "a", .leaf⟩]⟩, ⟨"NewX", [⟨"Token", "b", .leaf⟩]⟩]⟩
    let f : SourceFile := ⟨"ast", "", [], false, s⟩
    s.faults false = [] ∧ generateSchema {} (some s) = .ok f.text ∧
      "type NewX[R any] struct \x7b" ∈ (f.blocks true []).flatten ∧
      "func NewX[R any](a Token) *X[R] \x7b" ∈ (f.blocks true []).flatten ∧
      ¬f.declaredNames.Nodup := by
  decide +kernel

end NodeFamily.Emission
