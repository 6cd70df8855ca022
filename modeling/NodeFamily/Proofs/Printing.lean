import NodeFamily.Generation
import NodeFamily.Proofs.DeclarationGrammar

/-!
# Printing a schema

`Schema.print` writes a schema as declarations, with one space wherever spacing is of use. A legal
schema comes back from its declarations with the marks of its fields set anew (`parse_print`), and
these marks are the only thing that reading can change. Neither the checks nor the emitted file look
at the marks that a schema comes with (`Schema.checkAs_classify`, `generateSchema_classify`), so that
both ways to a file agree under every choice of options (`print_agrees`).
-/

namespace NodeFamily

/-- A field as a declaration writes it. -/
def Field.print (f : Field) : String := f.type ++ " " ++ f.name

/-- A variant as a declaration. -/
def Variant.print (v : Variant) : String :=
  v.name ++ " : " ++ ", ".intercalate (v.fields.map Field.print)

/-- The declarations of a schema. -/
def Schema.print (s : Schema) : List String := s.variants.map Variant.print

/-! ## Reading what was printed -/

/-- A space is spacing. -/
theorem isGap_space : IsGap [' '] := by
  intro c hc
  obtain rfl := List.mem_singleton.1 hc
  decide

/-- A printed field spells the field with its mark set, also after a space. -/
theorem spellsField_print (f : Field) : SpellsField (' ' :: f.print.toList) f.classify := by
  refine ⟨⟨[' '], [' '], [], isGap_space, isGap_space, by simp, by simp [IsGap], ?_⟩, rfl⟩
  simp [Field.print, Field.classify]

/-- Joining with a comma and a space is joining with a comma what begins with a space. -/
theorem intercalate_comma_space {pieces : List (List Char)} (h : pieces ≠ []) :
    [','].intercalate (pieces.map (' ' :: ·)) = ' ' :: [',', ' '].intercalate pieces := by
  induction pieces with
  | nil => exact absurd rfl h
  | cons piece pieces ih =>
    cases pieces with
    | nil => simp
    | cons next pieces =>
      have ih' := ih (by simp)
      rw [List.map_cons] at ih' ⊢
      rw [List.map_cons, List.intercalate_cons_cons, ih', List.intercalate_cons_cons]
      simp

/-- A printed variant spells the variant with its marks set. -/
theorem spells_print {v : Variant} (h : v.fields ≠ []) : Spells v.print v.classify := by
  refine ⟨v.name.toList ++ [' '], v.fields.map fun f => ' ' :: f.print.toList, ?_, ?_, ?_, ?_⟩
  · have hpieces : (v.fields.map fun f => ' ' :: f.print.toList) =
        ((v.fields.map Field.print).map String.toList).map (' ' :: ·) := by
      simp
    rw [hpieces, intercalate_comma_space (by simpa using h)]
    simp [Variant.print, String.toList_intercalate]
  · exact ⟨[], [' '], by simp [IsGap], isGap_space, by simp [Variant.classify]⟩
  · simpa using h
  · rw [Variant.classify, List.forall₂_map_left_iff, List.forall₂_map_right_iff]
    exact List.forall₂_same.2 fun f _ => spellsField_print f

/-- A schema is legal whatever the marks of its fields are. -/
theorem Schema.IsLegal.classify {s : Schema} {exported : Bool} (h : s.IsLegal exported) :
    s.classify.IsLegal exported := by
  refine ⟨fun v hv => ?_, by simpa using h.nodup⟩
  obtain ⟨u, hu, rfl⟩ := List.mem_map.1 hv
  obtain ⟨hname, hnode, hvisitor, hfields, hnodup⟩ := h.variants u hu
  refine ⟨hname, hnode, hvisitor, fun f hf => ?_, ?_⟩
  · obtain ⟨g, hg, rfl⟩ := List.mem_map.1 hf
    obtain ⟨htype, hfname, hvariant, haccept⟩ := hfields g hg
    rw [Schema.names_classify]
    exact ⟨htype, hfname, hvariant, haccept⟩
  · simpa [Variant.classify, Field.classify, Function.comp_def] using hnodup

/-- A legal schema in which every variant has a field comes back from its declarations. -/
theorem parse_print {s : Schema} (hne : s.variants ≠ []) (hfields : ∀ v ∈ s.variants, v.fields ≠ [])
    (h : s.IsLegal false) (failFast : Bool) : parse failFast s.print = .ok s.classify := by
  refine parse_iff.2 ⟨by simpa [Schema.print] using hne, ?_, h.classify⟩
  rw [Schema.print, Schema.classify, List.forall₂_map_left_iff, List.forall₂_map_right_iff]
  exact List.forall₂_same.2 fun v hv => spells_print (hfields v hv)

/-! ## Marks are of no account -/

/-- The check of fields does not look at their marks. -/
theorem fieldFaults_classify {isVariant : String → Bool} {ident : String → String} {i : Nat}
    {variant : String} {earlier : List (String × String)} {j : Nat} {fs : List Field} :
    fieldFaults isVariant ident i variant earlier j (fs.map Field.classify) =
      fieldFaults isVariant ident i variant earlier j fs := by
  induction fs generalizing earlier j with
  | nil => rfl
  | cons f fs ih =>
    rw [List.map_cons, fieldFaults, fieldFaults]
    have hfault : ∀ place ident, fieldFault? isVariant place variant earlier ident f.classify =
      fieldFault? isVariant place variant earlier ident f := fun _ _ => rfl
    simp only [hfault, ih]
    rfl

/-- The check of a schema does not look at the marks of its fields. -/
theorem Schema.checkAs_classify (s : Schema) (ident : String → String) (failFast : Bool) :
    s.classify.checkAs ident failFast = s.checkAs ident failFast := by
  have hvariant : s.classify.isVariant = s.isVariant := by
    funext n
    simp [Schema.isVariant]
  have hfault : s.classify.variantFault? = s.variantFault? := by
    funext i v
    simp [Schema.variantFault?]
  -- Marking goes through the list variant by variant, so that the places of faults stay.
  have hmap : ∀ f : Nat → Variant → List Fault,
      s.classify.variants.mapIdx f = s.variants.mapIdx fun i v => f i v.classify := by
    intro f
    exact List.ext_getElem (by simp [Schema.classify]) (by simp [Schema.classify])
  have hall : s.classify.checkAs ident false = s.checkAs ident false := by
    rw [Schema.checkAs_eq, Schema.checkAs_eq, hvariant, hfault, hmap, hmap]
    simp only [Variant.classify, fieldFaults_classify]
    rfl
  cases failFast with
  | false => exact hall
  | true => rw [Schema.checkAs_failFast, Schema.checkAs_failFast, hall]

/-- A file does not depend on the marks that a schema comes with. -/
theorem generateSchema_classify (o : Options) (s : Schema) :
    generateSchema o (some s.classify) = generateSchema o (some s) := by
  have hempty : s.classify.variants.isEmpty = s.variants.isEmpty := by
    simp [Schema.classify]
  unfold generateSchema
  simp only [hempty, Schema.check, Schema.checkAs_classify, Schema.classify_classify]
  rfl

/-- The two ways to a file agree. On a schema that the check passes, with a variant and with a field
in every variant, reading the printed declarations gives the schema with its marks set, and whatever
the options are, the declarations and the schema lead to the same file or the same failure. Nor does
it matter which marks the schema comes with. -/
theorem print_agrees (s : Schema) (hne : s.variants ≠ [])
    (hfields : ∀ v ∈ s.variants, v.fields ≠ []) (h : s.faults false = []) :
    (∀ failFast, parse failFast s.print = .ok s.classify) ∧
      (∀ o, generate o s.print = generateSchema o (some s)) ∧
      ∀ t : Schema, t.classify = s.classify →
        ∀ o, generateSchema o (some t) = generateSchema o (some s) := by
  have hparse := parse_print hne hfields (Schema.faults_eq_nil_iff.1 h)
  refine ⟨hparse, fun o => ?_, fun t ht o => ?_⟩
  · rw [generate, hparse]
    exact generateSchema_classify o s
  · rw [← generateSchema_classify o t, ht, generateSchema_classify]

/-- A schema of two variants whose first field carries a number that is no mark. -/
theorem print_agrees_binary :
    let s : Schema := ⟨[⟨"Binary", [⟨"Expr", "left", .other 7⟩, ⟨"*token.Token", "op", .leaf⟩]⟩,
      ⟨"Nil", [⟨"any", "value", .recursive⟩]⟩]⟩
    s.faults false = [] ∧ s.print = ["Binary : Expr left, *token.Token op", "Nil : any value"] ∧
      ∀ o, generate o s.print = generateSchema o (some s) := by
  refine ⟨by decide +kernel, by decide +kernel, ?_⟩
  exact (print_agrees _ (by decide) (by decide) (by decide +kernel)).2.1

end NodeFamily
