import NodeFamily.Proofs.Emission.Outline
import NodeFamily.Proofs.NameCapture
import NodeFamily.Proofs.Printing

/-!
# What the result parameter hides

The names that the choice of the result parameter avoids are said here in terms of the schema
(`Uses`), so that the parameter is the first candidate that the schema does not use.

A file of a schema that is accepted hides neither of the two names that a constructor needs: its
parameters are called like the fields, which the choice of the result parameter avoids and which the
check keeps apart from the variant. Nor does it declare the result parameter as a name of its own.
`resultParam_hides_nothing` says so of the file as it is put together, and of the text that is
generated, as far as it can be read off its lines.
-/

namespace NodeFamily

open Outline

namespace Emission

/-! ## The names that a schema uses -/

/-- A schema uses a name: one of the two generic types, a variant, a field, or a field type without
the star at its front. -/
inductive Uses (s : Schema) : String → Prop
  /-- The node type. -/
  | node : Uses s "Expr"
  /-- The visitor type. -/
  | visitor : Uses s "Visitor"
  /-- A variant. -/
  | variant {v : Variant} (hv : v ∈ s.variants) : Uses s v.name
  /-- A field. -/
  | field {v : Variant} {f : Field} (hv : v ∈ s.variants) (hf : f ∈ v.fields) : Uses s f.name
  /-- A field type that begins with no star. -/
  | type {v : Variant} {f : Field} (hv : v ∈ s.variants) (hf : f ∈ v.fields)
    (hstar : f.type.toList.head? ≠ some '*') : Uses s f.type
  /-- What follows the star of a field type. -/
  | starred {v : Variant} {f : Field} {n : String} (hv : v ∈ s.variants) (hf : f ∈ v.fields)
    (hstar : f.type = "*" ++ n) : Uses s n

/-- A type without its star is what follows it, or the type itself when it begins with no star. -/
theorem typeBase_cases (t : String) :
    t = "*" ++ typeBase t ∨ (t.toList.head? ≠ some '*' ∧ typeBase t = t) := by
  unfold typeBase
  split
  · next rest heq =>
    left
    rw [← String.toList_inj, heq]
    simp
  · next hnone =>
    refine .inr ⟨fun hhead => ?_, rfl⟩
    obtain ⟨rest, hrest⟩ := List.head?_eq_some_iff.1 hhead
    exact hnone rest hrest

/-- What follows the star of a type. -/
theorem typeBase_star (n : String) : typeBase ("*" ++ n) = n := by
  simp [typeBase]

/-- The names that the choice avoids are those that the schema uses. -/
theorem mem_usedNames_iff {s : Schema} {n : String} : n ∈ usedNames s ↔ Uses s n := by
  unfold usedNames
  simp only [List.mem_cons, List.mem_flatMap, List.not_mem_nil, or_false]
  constructor
  · rintro (rfl | rfl | ⟨v, hv, rfl | ⟨f, hf, rfl | rfl⟩⟩)
    · exact .node
    · exact .visitor
    · exact .variant hv
    · exact .field hv hf
    · rcases typeBase_cases f.type with hstar | ⟨hstar, hbase⟩
      · exact .starred hv hf hstar
      · rw [hbase]
        exact .type hv hf hstar
  · intro h
    cases h with
    | node => exact .inl rfl
    | visitor => exact .inr (.inl rfl)
    | variant hv => exact .inr (.inr ⟨_, hv, .inl rfl⟩)
    | field hv hf => exact .inr (.inr ⟨_, hv, .inr ⟨_, hf, .inl rfl⟩⟩)
    | @type v f hv hf hstar =>
      rcases typeBase_cases f.type with heq | ⟨-, hbase⟩
      · exact absurd (by rw [heq]; simp) hstar
      · exact .inr (.inr ⟨v, hv, .inr ⟨f, hf, .inr hbase.symm⟩⟩)
    | starred hv hf hstar =>
      exact .inr (.inr ⟨_, hv, .inr ⟨_, hf, .inr (by rw [hstar, typeBase_star])⟩⟩)

/-! ## The names of a file -/

/-- No parameter of a constructor is called like the variant or like the result parameter. -/
theorem SourceFile.param_ne {f : SourceFile} (h : f.schema.faults f.exportFields = [])
    {v : VariantSource} (hv : v ∈ f.variants) {p : FieldSource} (hp : p ∈ v.fields) :
    p.param ≠ v.name ∧ p.param ≠ resultParam f.schema := by
  obtain ⟨w, hw, rfl⟩ := List.mem_map.1 hv
  obtain ⟨g, hg, rfl⟩ := List.mem_map.1 hp
  -- The check keeps a field name from that of its variant, and the search from the parameter.
  constructor
  · exact (((Schema.faults_eq_nil_iff.1 h).variants w hw).fields g hg).ne_variant
  · intro heq
    exact resultParam_not_mem_usedNames f.schema (heq ▸ mem_usedNames_iff.2 (.field hw hg))

/-- The result parameter is not a name that the file declares. -/
theorem SourceFile.resultParam_not_mem_declaredNames (f : SourceFile) :
    resultParam f.schema ∉ f.declaredNames := by
  rw [SourceFile.mem_declaredNames_iff]
  rintro (hmem | ⟨v, -, heq⟩)
  · -- The types that a file declares are among the names that the schema uses.
    refine resultParam_not_mem_usedNames f.schema ?_
    simp only [List.mem_cons] at hmem
    rcases hmem with hnode | hvisitor | hname
    · rw [hnode]
      exact mem_usedNames_iff.2 .node
    · rw [hvisitor]
      exact mem_usedNames_iff.2 .visitor
    · obtain ⟨v, hv, hname⟩ := List.mem_map.1 hname
      exact hname ▸ mem_usedNames_iff.2 (.variant hv)
  · -- A constructor begins with another letter than all candidates.
    have hhead := head?_resultParam f.schema
    rw [← heq] at hhead
    exact absurd hhead (by simp [VariantSource.constructorName])

/-! ## The names of a text -/

/-- An item keeps apart from a type parameter `r`: it declares no such name, and no parameter of a
constructor is called like that or like the type that is built. -/
def KeepsApart (r : String) : Item → Prop
  | .interface n _ => n ≠ r
  | .struct n _ => n ≠ r
  | .check _ => True
  | .accept _ _ => True
  | .constructor n params built _ => "New" ++ n ≠ r ∧ ∀ p ∈ params, p.1 ≠ built ∧ p.1 ≠ r

/-- What the text of a plain file shows keeps apart from a type parameter that the file does not
declare, when no parameter of a constructor is called like that or like the variant. -/
theorem SourceFile.keepsApart_items {f : SourceFile} (hplain : f.isPlain = true) {r : String}
    (hdeclared : r ∉ f.declaredNames)
    (hparam : ∀ v ∈ f.variants, ∀ p ∈ v.fields, p.param ≠ v.name ∧ p.param ≠ r) :
    ∀ item ∈ items (linesOf f.text), KeepsApart r item := by
  have hne : ∀ n ∈ f.declaredNames, n ≠ r := fun n hn heq => hdeclared (heq ▸ hn)
  have hnode : nodeName ∈ f.declaredNames := by simp [SourceFile.declaredNames]
  have hvisitor : visitorName ∈ f.declaredNames := by simp [SourceFile.declaredNames]
  have hvariant : ∀ v ∈ f.variants, ∀ item ∈ v.items, KeepsApart r item := by
    intro v hv
    have hname : v.name ∈ f.declaredNames :=
      List.mem_append_left _ (List.mem_append_right _ (List.mem_map_of_mem hv))
    have hconstructor : v.constructorName ∈ f.declaredNames :=
      List.mem_append_right _ (List.mem_map_of_mem hv)
    simp only [VariantSource.items, List.forall_mem_cons, KeepsApart, List.forall_mem_map]
    exact ⟨hne _ hname, trivial, trivial, ⟨hne _ hconstructor, hparam v hv⟩, by simp⟩
  rw [f.items_linesOf_text hplain, List.forall_mem_cons, List.forall_mem_cons,
    List.forall_mem_flatMap]
  exact ⟨hne _ hnode, hne _ hvisitor, hvariant⟩

end Emission

open Emission

/-- A schema for which a text is generated has no faults. -/
theorem faults_eq_nil_of_generateSchema {o : Options} {s : Schema} {code : String}
    (h : generateSchema o (some s) = .ok code) : s.faults o.exportFields = [] := by
  unfold generateSchema at h
  dsimp only at h
  split_ifs at h with hempty hcheck
  all_goals exact Schema.check_eq_nil_iff.1 (by simpa using hcheck)

/-- The result parameter is the first name in the order `R`, `Result`, `RT`, `RV`, `R1`, `R2` and so
on that the schema does not use, and the search for it fails no more often than the schema uses
names. In the file of a schema for which a text is generated, no parameter of a constructor is
called like the variant or like the result parameter, and the file does not declare the result
parameter. When the generator's name has no line break in it, the same can be read off the lines of
the text. -/
theorem resultParam_hides_nothing :
    (∀ s : Schema, ∃ k, resultParam s = candidate k ∧ ¬Uses s (candidate k) ∧
      (∀ m < k, Uses s (candidate m)) ∧ k ≤ (usedNames s).length) ∧
    ∀ (o : Options) (s : Schema) code, generateSchema o (some s) = .ok code →
      (∀ v ∈ (o.file s).variants, ∀ p ∈ v.fields,
        p.param ≠ v.name ∧ p.param ≠ resultParam s) ∧
      resultParam s ∉ (o.file s).declaredNames ∧
      ('\n' ∉ o.generator.toList →
        ∀ item ∈ items (linesOf code), KeepsApart (resultParam s) item) := by
  constructor
  · intro s
    obtain ⟨k, heq, hnew, hused⟩ := exists_first_candidate s
    exact ⟨k, heq, mem_usedNames_iff.not.1 hnew, fun m hm => mem_usedNames_iff.1 (hused m hm),
      le_length_of_used hused⟩
  · intro o s code h
    -- The file has the schema with its marks set, which changes neither its names nor its faults.
    have hparam : resultParam (o.file s).schema = resultParam s := resultParam_classify s
    have hfaults : (o.file s).schema.faults (o.file s).exportFields = [] := by
      rw [← faults_eq_nil_of_generateSchema h]
      exact s.checkAs_classify (fieldIdent o.exportFields) false
    have hdeclared := (o.file s).resultParam_not_mem_declaredNames
    have hparams : ∀ v ∈ (o.file s).variants, ∀ p ∈ v.fields,
        p.param ≠ v.name ∧ p.param ≠ resultParam (o.file s).schema :=
      fun v hv p hp => SourceFile.param_ne hfaults hv hp
    rw [hparam] at hdeclared hparams
    refine ⟨hparams, hdeclared, fun hgenerator => ?_⟩
    obtain ⟨-, -, hplain, rfl⟩ := (generateSchema_eq_ok_iff hgenerator).1 h
    exact SourceFile.keepsApart_items hplain hdeclared hparams

/-- A schema that uses the four preferred names, two of them for its variants. -/
theorem resultParam_hides_nothing_preferred :
    let s : Schema := ⟨[⟨"Result", [⟨"*R", "RT", .leaf⟩]⟩, ⟨"RV", [⟨"Expr", "result", .leaf⟩]⟩]⟩
    resultParam s = "R1" ∧
      (∃ k, "R1" = candidate k ∧ ∀ m < k, Uses s (candidate m)) ∧
      ∃ code, generateSchema {} (some s) = .ok code ∧ "R1" ∉ (Options.file {} s).declaredNames ∧
        ∀ item ∈ items (linesOf code), KeepsApart "R1" item := by
  intro s
  have hparam : resultParam s = "R1" := by decide +kernel
  have hgenerate : generateSchema {} (some s) = .ok (Options.file {} s).text :=
    generateSchema_of_isPlain (by decide) (by decide +kernel) (by decide +kernel)
  obtain ⟨k, heq, -, hused, -⟩ := resultParam_hides_nothing.1 s
  obtain ⟨-, hdeclared, hitems⟩ := resultParam_hides_nothing.2 {} s _ hgenerate
  rw [hparam] at heq hdeclared hitems
  exact ⟨hparam, ⟨k, heq, hused⟩, _, hgenerate, hdeclared, hitems (by decide)⟩

end NodeFamily
