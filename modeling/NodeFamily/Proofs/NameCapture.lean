import NodeFamily.Proofs.DeclaredNames
import NodeFamily.Proofs.Emission.ParameterSearch

/-!
# Names that are captured

A leaf type is written into the file as the schema has it, so the name that it begins with is looked
up where the file stands: first among type parameters, then among what the file declares, and only
then outside of it, where the schema's author meant it. `SourceFile.Resolves` says that no such name
stops short of there, and that the file hides no name that its own text needs from outside.

The check of a schema and the choice of the result parameter compare whole types with names. This is
enough for a type without a package (`leadingName_not_mem_of_unqualified`), but the package of a
type is never compared with anything, nor is anything compared with the constructors or with the
names that the text needs. `resolves_iff` shows that these are the only gaps, and
`not_resolves_package` falls into the first of them.
-/

namespace NodeFamily.Emission

/-! ## The names that types begin with -/

/-- The name that a type begins with, after its star: the package, or the type itself when it has no
package. -/
def leadingName (t : String) : String :=
  String.ofList ((typeBase t).toList.takeWhile continuesIdentifier)

/-- The characters of a name go on to its end. -/
theorem takeWhile_name {n : String} (h : isName n = true) (rest : List Char) :
    (n.toList ++ rest).takeWhile continuesIdentifier =
      n.toList ++ rest.takeWhile continuesIdentifier := by
  refine List.takeWhile_append_of_pos fun c hc => ?_
  by_contra hcont
  exact not_mem_of_isName h (Bool.not_eq_true _ ▸ hcont) hc

/-- A name begins with itself. -/
theorem leadingName_name {t : String} (h : isName (typeBase t) = true) :
    leadingName t = typeBase t := by
  have htake := takeWhile_name h []
  rw [List.append_nil] at htake
  rw [leadingName, htake, List.takeWhile_nil, List.append_nil, String.ofList_toList]

/-- The types of the fields that are no child expressions. -/
def leafTypes (s : Schema) : List String :=
  s.variants.flatMap fun v => (v.fields.filter (·.type ≠ nodeName)).map (·.type)

/-- What is known of a leaf type in a checked schema. -/
theorem isTypeBase_of_mem_leafTypes {s : Schema} {exported : Bool} (h : s.IsLegal exported)
    {t : String} (ht : t ∈ leafTypes s) :
    IsTypeBase (typeBase t) ∧ typeBase t ∉ nodeName :: visitorName :: s.names ∧
      typeBase t ∈ usedNames s := by
  obtain ⟨v, hv, ht⟩ := List.mem_flatMap.1 ht
  obtain ⟨f, hfilter, rfl⟩ := List.mem_map.1 ht
  obtain ⟨hf, hleaf⟩ := List.mem_filter.1 hfilter
  have hused : typeBase f.type ∈ usedNames s := by
    refine List.mem_cons_of_mem _ (List.mem_cons_of_mem _ (List.mem_flatMap.2 ⟨v, hv, ?_⟩))
    exact List.mem_cons_of_mem _ (List.mem_flatMap.2 ⟨f, hf, by simp⟩)
  rcases ((h.variants v hv).fields f hf).type with
    hnode | ⟨star, base, hstar, heq, hbase, hnode, hvisitor, hnames⟩
  · simp [hnode] at hleaf
  · have hb : typeBase f.type = base := by rw [heq, typeBase_append hstar hbase]
    rw [hb]
    exact ⟨hbase, by simp [hnode, hvisitor, hnames], hb ▸ hused⟩

/-- A type without a package begins with its own name, which the check compares with the generic
types and the variants, and the choice of the result parameter with that. -/
theorem leadingName_not_mem_of_unqualified {s : Schema} {exported : Bool} (h : s.IsLegal exported)
    {t : String} (ht : t ∈ leafTypes s) (hdot : '.' ∉ t.toList) :
    leadingName t ∉ resultParam s :: nodeName :: visitorName :: s.names := by
  obtain ⟨hbase, hnames, hused⟩ := isTypeBase_of_mem_leafTypes h ht
  have hname : isName (typeBase t) = true := by
    obtain ⟨star, -, heq⟩ := exists_star t
    generalize typeBase t = base at hbase heq
    cases hbase with
    | name hn => exact hn
    | member hp hn => simp [heq] at hdot
  rw [leadingName_name hname, List.mem_cons, not_or]
  refine ⟨fun heq => resultParam_not_mem_usedNames s (heq ▸ hused), hnames⟩

/-! ## Capture -/

/-- The names from outside that the text of every file needs. -/
def neededNames : List String := ["any", "nil"]

/-- Every name that a file takes from outside is found there: no type parameter and no declaration
of the file stands before it. -/
structure SourceFile.Resolves (f : SourceFile) : Prop where
  /-- No leaf type begins with the result parameter. -/
  ne_param : ∀ t ∈ leafTypes f.schema, leadingName t ≠ resultParam f.schema
  /-- No leaf type begins with a name that the file declares. -/
  not_declared : ∀ t ∈ leafTypes f.schema, leadingName t ∉ f.declaredNames
  /-- The file declares no name that its own text needs. -/
  not_needed : ∀ n ∈ f.declaredNames, n ∉ neededNames

/-- The names that a file declares are the generic types, the variants and the constructors. -/
theorem SourceFile.mem_declaredNames_iff {f : SourceFile} {n : String} :
    n ∈ f.declaredNames ↔
      n ∈ nodeName :: visitorName :: f.schema.names ∨ ∃ v ∈ f.variants, v.constructorName = n := by
  simp [SourceFile.declaredNames, f.map_name_variants, or_assoc]

/-- No generic type and no constructor is called like a name that the text needs. -/
theorem not_mem_neededNames {n : String} (v : VariantSource)
    (h : n = nodeName ∨ n = visitorName ∨ n = v.constructorName) : n ∉ neededNames := by
  have hhead : v.constructorName.toList.head? = some 'N' := by
    simp [VariantSource.constructorName]
  rcases h with rfl | rfl | rfl
  · decide
  · decide
  · intro hmem
    have hneeded : ∀ n ∈ neededNames, n.toList.head? ≠ some 'N' := by decide
    exact hneeded _ hmem hhead

/-- In the file of a checked schema every name from outside is found there exactly when the package
of no leaf type is called like the result parameter or like a name that the file declares, no leaf
type without a package is called like a constructor, and no variant is called like a name that the
text needs. -/
theorem resolves_iff (f : SourceFile) (h : f.schema.faults f.exportFields = []) :
    f.Resolves ↔
      (∀ t ∈ leafTypes f.schema, '.' ∈ t.toList →
        leadingName t ≠ resultParam f.schema ∧ leadingName t ∉ f.declaredNames) ∧
      (∀ t ∈ leafTypes f.schema, '.' ∉ t.toList →
        ∀ v ∈ f.variants, leadingName t ≠ v.constructorName) ∧
      ∀ v ∈ f.variants, v.name ∉ neededNames := by
  have hlegal := Schema.faults_eq_nil_iff.1 h
  constructor
  · rintro ⟨hparam, hdeclared, hneeded⟩
    refine ⟨fun t ht _ => ⟨hparam t ht, hdeclared t ht⟩, fun t ht _ v hv heq => ?_, fun v hv => ?_⟩
    · exact hdeclared t ht (SourceFile.mem_declaredNames_iff.2 (.inr ⟨v, hv, heq.symm⟩))
    · refine hneeded _ (SourceFile.mem_declaredNames_iff.2 (.inl ?_))
      rw [← f.map_name_variants]
      exact List.mem_cons_of_mem _ (List.mem_cons_of_mem _ (List.mem_map_of_mem hv))
  · rintro ⟨hqualified, hconstructor, hvariant⟩
    -- What the check does compare leaves only the packages and the constructors to be ruled out.
    have hunqualified : ∀ t ∈ leafTypes f.schema, '.' ∉ t.toList →
        leadingName t ≠ resultParam f.schema ∧ leadingName t ∉ f.declaredNames := by
      intro t ht hdot
      have hnot := leadingName_not_mem_of_unqualified hlegal ht hdot
      rw [List.mem_cons, not_or] at hnot
      refine ⟨hnot.1, fun hmem => ?_⟩
      rcases SourceFile.mem_declaredNames_iff.1 hmem with hmem | ⟨v, hv, heq⟩
      · exact hnot.2 hmem
      · exact hconstructor t ht hdot v hv heq.symm
    have hleaf : ∀ t ∈ leafTypes f.schema,
        leadingName t ≠ resultParam f.schema ∧ leadingName t ∉ f.declaredNames := fun t ht =>
      if hdot : '.' ∈ t.toList then hqualified t ht hdot else hunqualified t ht hdot
    refine ⟨fun t ht => (hleaf t ht).1, fun t ht => (hleaf t ht).2, fun n hn => ?_⟩
    rcases SourceFile.mem_declaredNames_iff.1 hn with hmem | ⟨v, -, rfl⟩
    · rw [← f.map_name_variants] at hmem
      simp only [List.mem_cons, List.mem_map] at hmem
      rcases hmem with rfl | rfl | ⟨v, hv, rfl⟩
      · exact not_mem_neededNames ⟨"", []⟩ (.inl rfl)
      · exact not_mem_neededNames ⟨"", []⟩ (.inr (.inl rfl))
      · exact hvariant v hv
    · exact not_mem_neededNames v (.inr (.inr rfl))

/-- A field in a package and a field with a star, whose names are all found outside. -/
theorem resolves_binary :
    (SourceFile.mk "ast" "" ["example.com/token"] false
      ⟨[⟨"Binary", [⟨"Expr", "left", .recursive⟩, ⟨"token.Token", "R", .leaf⟩]⟩,
        ⟨"Literal", [⟨"*Value", "value", .leaf⟩]⟩]⟩).Resolves :=
  (resolves_iff _ (by decide +kernel)).2 (by decide +kernel)

/-- A package called like the result parameter: the schema is checked without fault, a file is
generated for it, and in this file the type of a field begins with the type parameter of its own
struct. -/
theorem not_resolves_package :
    let s : Schema := ⟨[⟨"X", [⟨"R.T", "a", .leaf⟩]⟩]⟩
    let f : SourceFile := ⟨"ast", "", ["example.com/R"], false, s⟩
    s.faults false = [] ∧
      generateSchema { imports := ["example.com/R"] } (some s) = .ok f.text ∧
      ["type X[R any] struct \x7b", "\ta R.T", "\x7d"] ∈ f.blocks true ["example.com/R"] ∧
      leadingName "R.T" = resultParam s ∧ ¬f.Resolves := by
  have hchecked : (⟨[⟨"X", [⟨"R.T", "a", .leaf⟩]⟩]⟩ : Schema).faults false = [] := by decide +kernel
  have hparam : leadingName "R.T" = resultParam ⟨[⟨"X", [⟨"R.T", "a", .leaf⟩]⟩]⟩ := by
    decide +kernel
  refine ⟨hchecked, rfl, by decide +kernel, hparam, fun hresolves => ?_⟩
  exact hresolves.ne_param "R.T" (by decide +kernel) hparam

end NodeFamily.Emission
