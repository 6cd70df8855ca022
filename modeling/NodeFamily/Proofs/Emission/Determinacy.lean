import NodeFamily.Proofs.Emission.ImportPaths
import NodeFamily.Proofs.Emission.Outline
import NodeFamily.Proofs.Layout.Unquoting

/-!
# A file determines what it was made from

Two schemas and their options that lead to the same text agree in everything that can be told apart:
the package and the generator after the defaults, the imports as a set, and the schema as it is
marked. The opening comment gives the generator, the first block the package and the block after it
the imports, because different paths are quoted differently. The schema is read from the
constructors, where its names stand as they are, also when the fields of the structs are put into
title case; a child and a leaf are told apart by the bracket in the type of a child
(`fieldType_classify_injective`).
-/

namespace NodeFamily

open Outline

namespace Emission

/-! ## Imports -/

/-- The lines of the import block at the front, less its first and its last line. -/
def readImports (lines : List String) : List String :=
  if lines.head? = some "import (" then lines.tail.takeWhile (· ≠ ")") else []

/-- The line of a path is not the one that closes an import block. -/
theorem ne_close_of_mem_paths (paths : List String) :
    ∀ line ∈ paths.map fun p => "\t" ++ Text.quote p, line ≠ ")" := by
  refine List.forall_mem_map.2 fun p _ heq => ?_
  have hhead := congrArg (·.toList.head?) heq
  exact absurd hhead (by simp)

/-- The lines of an import block and of the blocks after it. -/
theorem intercalate_importBlock {paths : List String} (hne : paths ≠ []) (next : List String)
    (blocks : List (List String)) :
    List.intercalate [""] (importBlock paths ++ next :: blocks) =
      "import (" :: ((paths.map fun p => "\t" ++ Text.quote p) ++
        ")" :: "" :: List.intercalate [""] (next :: blocks)) := by
  have hblock : importBlock paths =
      ["import (" :: ((paths.map fun p => "\t" ++ Text.quote p) ++ [")"])] := by
    cases paths with
    | nil => exact absurd rfl hne
    | cons p paths => rfl
  rw [hblock, List.singleton_append, List.intercalate_cons_cons]
  simp only [List.cons_append, List.append_assoc, List.nil_append]

/-- The imports are read from the lines after the package clause. -/
theorem readImports_blocks (paths : List String) (r : String) (blocks : List (List String)) :
    readImports (List.intercalate [""] (importBlock paths ++ nodeInterface r :: blocks)) =
      paths.map fun p => "\t" ++ Text.quote p := by
  by_cases hne : paths = []
  · subst hne
    cases blocks with
    | nil => rfl
    | cons next blocks =>
      rw [importBlock, List.nil_append, List.intercalate_cons_cons]
      rfl
  · rw [intercalate_importBlock hne, readImports, List.head?_cons, if_pos rfl, List.tail_cons,
      takeWhile_body (ne_close_of_mem_paths paths)]

/-! ## Types -/

/-- The type that a marked field is written with. -/
theorem fieldType_classify (r : String) (f : Field) :
    fieldType r f.classify = if f.type = nodeName then nodeName ++ "[" ++ r ++ "]" else f.type := by
  simp only [fieldType, Field.kind_classify_eq_recursive_iff]
  rfl

/-- The type that a field is written with determines the type in the schema. -/
theorem fieldType_classify_injective {r₁ r₂ : String} {f₁ f₂ : Field}
    (h₁ : f₁.type = nodeName ∨ isTypeName f₁.type = true)
    (h₂ : f₂.type = nodeName ∨ isTypeName f₂.type = true)
    (h : fieldType r₁ f₁.classify = fieldType r₂ f₂.classify) : f₁.type = f₂.type := by
  have hchild : ∀ {r : String} {f : Field}, (f.type = nodeName ∨ isTypeName f.type = true) →
      ('[' ∈ (fieldType r f.classify).toList ↔ f.type = nodeName) := by
    intro r f hf
    rw [fieldType_classify]
    split_ifs with hnode
    · simp [hnode]
    · simp only [hnode, iff_false]
      exact not_mem_of_isTypeName (hf.resolve_left hnode) (by decide) (by decide)
  have hiff : f₁.type = nodeName ↔ f₂.type = nodeName := by
    rw [← hchild (r := r₁) h₁, h, hchild h₂]
  by_cases hnode : f₁.type = nodeName
  · rw [hnode, hiff.1 hnode]
  · rw [fieldType_classify, fieldType_classify, if_neg hnode, if_neg (hiff.not.1 hnode)] at h
    exact h

/-! ## Files -/

/-- Files with the same text agree in their opening comment and in the lines of their blocks. -/
theorem SourceFile.of_text_eq {f g : SourceFile} (hf : f.isPlain = true) (hg : g.isPlain = true)
    (h : f.text = g.text) :
    f.header = g.header ∧ List.intercalate [""] (f.blocks true (importPaths f.imports)) =
      List.intercalate [""] (g.blocks true (importPaths g.imports)) := by
  have hlines : linesOf f.text = linesOf g.text := by rw [h]
  rw [linesOf_text hf, linesOf_text hg, List.cons_append, List.cons_append, List.cons_append,
    List.cons_append, List.cons.injEq] at hlines
  obtain ⟨hheader, hrest⟩ := hlines
  rw [hheader, List.append_left_inj, List.append_right_inj] at hrest
  exact ⟨hheader, hrest⟩

/-- The opening comment gives the generator, when it has no carriage return in its name. -/
theorem SourceFile.generatorName_eq {f g : SourceFile} (hplainf : f.isPlain = true)
    (hplaing : g.isPlain = true) (hf : '\r' ∉ f.generatorName.toList)
    (hg : '\r' ∉ g.generatorName.toList) (h : f.header = g.header) :
    f.generatorName = g.generatorName := by
  have hends : '\r' ∉ headerStart.toList ++ headerEnd.toList := by decide
  have hkeep : ∀ f : SourceFile, '\r' ∉ f.generatorName.toList →
      f.header = headerText f.generatorName.shown := by
    intro f hf
    have hchars : ∀ c ∈ (headerText f.generatorName.shown).toList, decide (c ≠ '\r') = true := by
      unfold headerText
      simp only [String.toList_append, List.mem_append, not_or] at hends ⊢
      rintro c ((hc | hc) | hc)
      · exact decide_eq_true (ne_of_mem_of_not_mem hc hends.1)
      · exact decide_eq_true (ne_of_mem_of_not_mem hc hf)
      · exact decide_eq_true (ne_of_mem_of_not_mem hc hends.2)
    rw [header, List.filter_eq_self.2 hchars, String.ofList_toList]
  rw [hkeep f hf, hkeep g hg] at h
  unfold headerText at h
  have hshown := (String.append_right_inj _).1 ((String.append_left_inj _).1 h)
  -- The names are texts, so that what they are shown as gives them.
  obtain ⟨name, hname, -⟩ := exists_generatorName hplainf
  obtain ⟨name', hname', -⟩ := exists_generatorName hplaing
  rw [Text.Raw.shown_eq hname, Text.Raw.shown_eq hname'] at hshown
  rw [Text.Raw.text?_eq_some_iff.1 hname, Text.Raw.text?_eq_some_iff.1 hname', hshown]

/-- The lines of the blocks of a file: the package clause, and after it the imports and what is
declared. -/
theorem SourceFile.intercalate_blocks (f : SourceFile) (paths : List String) :
    List.intercalate [""] (f.blocks true paths) =
      ("package " ++ f.package) :: "" ::
        List.intercalate [""] (importBlock paths ++ nodeInterface (resultParam f.schema) ::
          (visitorInterface (resultParam f.schema) f.variants ::
            f.variants.flatMap (VariantSource.blocks true (resultParam f.schema)))) := by
  have hne : importBlock paths ++ nodeInterface (resultParam f.schema) ::
      (visitorInterface (resultParam f.schema) f.variants ::
        f.variants.flatMap (VariantSource.blocks true (resultParam f.schema))) ≠ [] := by simp
  obtain ⟨next, blocks, hnext⟩ := List.exists_cons_of_ne_nil hne
  have hlist : f.blocks true paths = packageBlock f.package :: next :: blocks := by
    rw [← hnext]
    simp [SourceFile.blocks]
  rw [hlist, hnext, List.intercalate_cons_cons]
  rfl

/-- The lines of the blocks give the package and the imports. -/
theorem SourceFile.preamble_eq {f g : SourceFile}
    (h : List.intercalate [""] (f.blocks true (importPaths f.imports)) =
      List.intercalate [""] (g.blocks true (importPaths g.imports))) :
    f.package = g.package ∧ importPaths f.imports = importPaths g.imports := by
  rw [f.intercalate_blocks, g.intercalate_blocks, List.cons.injEq, List.cons.injEq] at h
  obtain ⟨hpackage, -, hrest⟩ := h
  have himports := congrArg readImports hrest
  rw [readImports_blocks, readImports_blocks] at himports
  refine ⟨(String.append_right_inj _).1 hpackage, ?_⟩
  refine List.map_injective_iff.2 (fun p q hpq => ?_) himports
  exact Layout.quote_injective ((String.append_right_inj _).1 hpq)

/-! ## Schemas -/

/-- The constructors among items, with their parameters. -/
def constructors (is : List Item) : List (String × List (String × String)) :=
  is.filterMap fun
    | .constructor n params _ _ => some (n, params)
    | _ => none

/-- What two functions take from lists in the same way can be taken from them by a third one, when
it does not take more. -/
theorem map_eq_of_map_eq {α β γ : Type} {f₁ f₂ : α → β} {g : α → γ} {xs ys : List α}
    (h : xs.map f₁ = ys.map f₂) (hg : ∀ x ∈ xs, ∀ y ∈ ys, f₁ x = f₂ y → g x = g y) :
    xs.map g = ys.map g := by
  induction xs generalizing ys with
  | nil =>
    obtain rfl := List.map_eq_nil_iff.1 h.symm
    rfl
  | cons x xs ih =>
    cases ys with
    | nil => exact absurd h (by simp)
    | cons y ys =>
      rw [List.map_cons, List.map_cons, List.cons.injEq] at h
      rw [List.map_cons, List.map_cons, hg x List.mem_cons_self y List.mem_cons_self h.1,
        ih h.2 fun x hx y hy => hg x (List.mem_cons_of_mem _ hx) y (List.mem_cons_of_mem _ hy)]

end Emission

open Emission

/-- The constructors of a text name their parameters as the schema names its fields. -/
theorem constructors_text {o : Options} {s : Schema} (h : (o.file s).isPlain = true) :
    constructors (items (linesOf (o.file s).text)) = s.variants.map fun v =>
      (v.name, v.fields.map fun f => (f.name, fieldType (resultParam s) f.classify)) := by
  have hone : constructors (items (linesOf (o.file s).text)) = (o.file s).variants.flatMap fun v =>
      [(v.name, v.fields.map fun f => (f.param, f.type))] := by
    rw [SourceFile.items_linesOf_text h]
    simp [constructors, VariantSource.items, List.filterMap_flatMap]
  rw [hone, ← List.map_eq_flatMap, variants_file, List.map_map]
  simp [VariantSource.of, FieldSource.of, Variant.classify, Field.classify, Function.comp_def]

/-- The names and the types of the constructors' parameters determine a legal schema up to the marks
of its fields. -/
theorem Schema.classify_eq_of_constructors {s₁ s₂ : Schema} {e₁ e₂ : Bool} (h₁ : s₁.IsLegal e₁)
    (h₂ : s₂.IsLegal e₂) {r₁ r₂ : String}
    (h : (s₁.variants.map fun v =>
        (v.name, v.fields.map fun f => (f.name, fieldType r₁ f.classify))) =
      s₂.variants.map fun v => (v.name, v.fields.map fun f => (f.name, fieldType r₂ f.classify))) :
    s₁.classify = s₂.classify := by
  have hvariants : s₁.variants.map Variant.classify = s₂.variants.map Variant.classify := by
    refine map_eq_of_map_eq h fun v hv w hw hvw => ?_
    obtain ⟨hname, hfields⟩ := Prod.mk.inj hvw
    have hclassify : v.fields.map Field.classify = w.fields.map Field.classify := by
      refine map_eq_of_map_eq hfields fun f hf g hg hfg => ?_
      obtain ⟨hfield, htype⟩ := Prod.mk.inj hfg
      have hsame := fieldType_classify_injective
        ((h₁.variants v hv).fields f hf).type.isTypeName
        ((h₂.variants w hw).fields g hg).type.isTypeName htype
      rw [Field.classify, Field.classify, hfield, hsame]
    rw [Variant.classify, Variant.classify, hname, hclassify]
  rw [Schema.classify, Schema.classify, hvariants]

/-- What a text was generated from. When two schemas with their options lead to the same text, and
no generator's name has a line feed or a carriage return in it, then the packages and the generators
agree after the defaults, the same paths that are not empty are imported, and the schemas have the
same variants with the same fields of the same types in the same order, whether or not the fields of
the structs are put into title case. -/
theorem generateSchema_determines {o₁ o₂ : Options} {s₁ s₂ : Schema} {code : String}
    (hgenerator₁ : ∀ c ∈ o₁.generator.toList, c ≠ '\n' ∧ c ≠ '\r')
    (hgenerator₂ : ∀ c ∈ o₂.generator.toList, c ≠ '\n' ∧ c ≠ '\r')
    (h₁ : generateSchema o₁ (some s₁) = .ok code) (h₂ : generateSchema o₂ (some s₂) = .ok code) :
    (if o₁.package = "" then defaultPackage else o₁.package) =
        (if o₂.package = "" then defaultPackage else o₂.package) ∧
      (if o₁.generator = ("" : Text.Raw) then (defaultGenerator : Text.Raw) else o₁.generator) =
        (if o₂.generator = ("" : Text.Raw) then (defaultGenerator : Text.Raw) else o₂.generator) ∧
      (∀ p, p ≠ "" → (p ∈ o₁.imports ↔ p ∈ o₂.imports)) ∧
      s₁.classify = s₂.classify := by
  have hbreak₁ : '\n' ∉ o₁.generator.toList := fun hmem => (hgenerator₁ _ hmem).1 rfl
  have hbreak₂ : '\n' ∉ o₂.generator.toList := fun hmem => (hgenerator₂ _ hmem).1 rfl
  obtain ⟨-, hfaults₁, hplain₁, htext₁⟩ := (generateSchema_eq_ok_iff hbreak₁).1 h₁
  obtain ⟨-, hfaults₂, hplain₂, htext₂⟩ := (generateSchema_eq_ok_iff hbreak₂).1 h₂
  obtain ⟨hheader, hblocks⟩ := SourceFile.of_text_eq hplain₁ hplain₂ (htext₁.trans htext₂.symm)
  obtain ⟨hpackage, himports⟩ := SourceFile.preamble_eq hblocks
  have hreturn : ∀ {o : Options} (s : Schema), (∀ c ∈ o.generator.toList, c ≠ '\n' ∧ c ≠ '\r') →
      '\r' ∉ (o.file s).generatorName.toList := by
    intro o s ho
    rw [SourceFile.generatorName]
    split_ifs
    · decide
    · exact fun hmem => (ho _ hmem).2 rfl
  refine ⟨hpackage, SourceFile.generatorName_eq hplain₁ hplain₂ (hreturn s₁ hgenerator₁)
    (hreturn s₂ hgenerator₂) hheader, fun p hp => ?_, ?_⟩
  · have hmem : p ∈ importPaths o₁.imports ↔ p ∈ importPaths o₂.imports := Iff.of_eq
      (congrArg (p ∈ ·) himports)
    simpa [mem_importPaths, hp] using hmem
  · have hconstructors := constructors_text hplain₁
    rw [htext₁, ← htext₂, constructors_text hplain₂] at hconstructors
    exact Schema.classify_eq_of_constructors (Schema.faults_eq_nil_iff.1 hfaults₁)
      (Schema.faults_eq_nil_iff.1 hfaults₂) hconstructors.symm

/-- Two inputs with the same text: the second one names the defaults, has its imports in another
order and with a repetition, and has other marks on its fields. -/
theorem generateSchema_determines_binary :
    let o₁ : Options := { imports := ["b", "", "a"], exportFields := true }
    let o₂ : Options :=
      { package := "ast", imports := ["a", "b", "a"], exportFields := true, generator := "astgen" }
    let s₁ : Schema := ⟨[⟨"Binary", [⟨"Expr", "left", .leaf⟩, ⟨"*token.Token", "op", .leaf⟩]⟩]⟩
    let s₂ : Schema :=
      ⟨[⟨"Binary", [⟨"Expr", "left", .recursive⟩, ⟨"*token.Token", "op", .other 7⟩]⟩]⟩
    generateSchema o₁ (some s₁) = generateSchema o₂ (some s₂) ∧ s₁.classify = s₂.classify := by
  intro o₁ o₂ s₁ s₂
  have h₁ : generateSchema o₁ (some s₁) = .ok (o₁.file s₁).text :=
    generateSchema_of_isPlain (by decide) (by decide +kernel) (by decide +kernel)
  have h₂ : generateSchema o₂ (some s₂) = .ok (o₁.file s₁).text :=
    generateSchema_of_isPlain (o := o₂) (by decide) (by decide +kernel) (by decide +kernel)
  have hgenerator₁ : ∀ c ∈ o₁.generator.toList, c ≠ '\n' ∧ c ≠ '\r' :=
    List.all_iff_forall_prop.1 (by decide)
  have hgenerator₂ : ∀ c ∈ o₂.generator.toList, c ≠ '\n' ∧ c ≠ '\r' :=
    List.all_iff_forall_prop.1 (by decide)
  exact ⟨h₁.trans h₂.symm, (generateSchema_determines hgenerator₁ hgenerator₂ h₁ h₂).2.2.2⟩

end NodeFamily
