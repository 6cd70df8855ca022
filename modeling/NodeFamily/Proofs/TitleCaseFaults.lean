import NodeFamily.Proofs.Emission.Outline
import NodeFamily.Proofs.FaultOrder

/-!
# What title case adds to the faults of a schema

A check may be asked for the field names as they are written or for their title forms. Putting them
into title case only ever adds places at which something is reported (`faults_exported`). This needs
nothing of title case but that names that are the same stay the same and that the name of the
accepting method is its own title form, so it holds for whatever else renames fields in this way
(`Schema.exists_faults_renamed`).

The two checks of a variant go through its fields side by side, but they do not take the same names.
A field that is only rejected under its new name is taken by the one check and not by the other, so
the new names of the names taken need not all be taken. What holds is `Bars`: no field can have such
a new name any more, be it taken already or that of the accepting method. Each field keeps this
(`Bars.cons`, `Bars.mono`), and it is enough for the next one (`fieldFault?_of_renamed`).
-/

namespace NodeFamily

open Text (titleWords)

section Renaming

variable {rename : String → String} {renamed plain : List (String × String)}

/-- The new name of each name that a check without renaming has taken is barred: it is that of the
accepting method, or it is taken. -/
def Bars (rename : String → String) (renamed plain : List (String × String)) : Prop :=
  ∀ n ∈ plain.map Prod.fst, rename n = acceptName ∨ rename n ∈ renamed.map Prod.fst

namespace Bars

/-- Nothing has to be barred while no name is taken. -/
theorem nil : Bars rename [] [] := fun _ hn => absurd hn List.not_mem_nil

/-- What is barred stays so when another new name is taken. -/
theorem mono (h : Bars rename renamed plain) (entry : String × String) :
    Bars rename (entry :: renamed) plain :=
  fun n hn => (h n hn).imp_right (List.mem_cons_of_mem _)

/-- A name may be taken when its new name is barred. -/
theorem cons (h : Bars rename renamed plain) {n : String} (field : String)
    (hn : rename n = acceptName ∨ rename n ∈ renamed.map Prod.fst) :
    Bars rename renamed ((n, field) :: plain) := by
  intro m hm
  rcases List.mem_cons.1 hm with rfl | hm
  · exact hn
  · exact h m hm

end Bars

variable {isVariant : String → Bool} {place : Place} {variant : String}

/-- A field without fault under its new name has none as it is written either. -/
theorem fieldFault?_of_renamed (haccept : rename acceptName = acceptName)
    (hbars : Bars rename renamed plain) {f : Field}
    (h : fieldFault? isVariant place variant renamed (rename f.name) f = none) :
    fieldFault? isVariant place variant plain f.name f = none := by
  obtain ⟨htype, hproblem, hnew⟩ := fieldFault?_eq_none_iff.1 h
  obtain ⟨hname, hvariant, hclash⟩ := fieldProblem?_eq_none_iff.1 hproblem
  refine fieldFault?_eq_none_iff.2
    ⟨htype, fieldProblem?_eq_none_iff.2 ⟨hname, hvariant, fun heq => ?_⟩, fun htaken => ?_⟩
  · exact hclash (heq.symm ▸ haccept)
  · rcases hbars f.name htaken with heq | htaken
    · exact hclash heq
    · exact hnew htaken

/-- A field that has a fault under its new name only is one whose new name is barred. -/
theorem barred_of_fieldFault? {f : Field} {g : Fault}
    (hplain : fieldFault? isVariant place variant plain f.name f = none)
    (hrenamed : fieldFault? isVariant place variant renamed (rename f.name) f = some g) :
    rename f.name = acceptName ∨ rename f.name ∈ renamed.map Prod.fst := by
  obtain ⟨htype, hproblem, -⟩ := fieldFault?_eq_none_iff.1 hplain
  obtain ⟨hname, hvariant, -⟩ := fieldProblem?_eq_none_iff.1 hproblem
  by_contra hfree
  obtain ⟨hclash, hnew⟩ := not_or.1 hfree
  have hnone : fieldFault? isVariant place variant renamed (rename f.name) f = none :=
    fieldFault?_eq_none_iff.2
      ⟨htype, fieldProblem?_eq_none_iff.2 ⟨hname, hvariant, hclash⟩, hnew⟩
  rw [hnone] at hrenamed
  exact absurd hrenamed (by simp)

/-- Where the fields of a variant have a fault as they are written, they have one under their new
names. -/
theorem exists_fieldFaults_renamed (haccept : rename acceptName = acceptName)
    (hbars : Bars rename renamed plain) (i j : Nat) (fields : List Field) :
    ∀ f ∈ fieldFaults isVariant id i variant plain j fields,
      ∃ g ∈ fieldFaults isVariant rename i variant renamed j fields, g.place = f.place := by
  induction fields generalizing renamed plain j with
  | nil => exact fun f hf => absurd hf List.not_mem_nil
  | cons field fields ih =>
    rw [fieldFaults, fieldFaults, id]
    cases hg : fieldFault? isVariant (.field i j) variant renamed (rename field.name) field with
    | none =>
      -- The name and its new name are both taken.
      rw [fieldFault?_of_renamed haccept hbars hg]
      exact ih ((hbars.mono _).cons _ (.inr List.mem_cons_self)) (j + 1)
    | some g =>
      cases hf : fieldFault? isVariant (.field i j) variant plain field.name field with
      | none =>
        -- Only the name is taken, and its new name is barred for the reason it has a fault for.
        intro f hmem
        obtain ⟨g', hg', hplace⟩ :=
          ih (hbars.cons _ (barred_of_fieldFault? hf hg)) (j + 1) f hmem
        exact ⟨g', List.mem_cons_of_mem _ hg', hplace⟩
      | some f =>
        refine List.forall_mem_cons.2 ⟨⟨g, List.mem_cons_self, ?_⟩, fun f' hf' => ?_⟩
        · rw [place_of_fieldFault? hg, place_of_fieldFault? hf]
        · obtain ⟨g', hg', hplace⟩ := ih hbars (j + 1) f' hf'
          exact ⟨g', List.mem_cons_of_mem _ hg', hplace⟩

/-- Where a schema has a fault as its fields are written, it has one under their new names, whatever
gives these names, if it leaves that of the accepting method as it is. -/
theorem Schema.exists_faults_renamed (haccept : rename acceptName = acceptName) (s : Schema) :
    ∀ f ∈ s.checkAs id false, ∃ g ∈ s.checkAs rename false, g.place = f.place := by
  intro f hf
  rw [Schema.checkAs_eq] at hf ⊢
  rcases List.mem_append.1 hf with hf | hf
  · -- The names of the variants are checked before any field is looked at.
    exact ⟨f, List.mem_append_left _ hf, rfl⟩
  · obtain ⟨faults, hfaults, hf⟩ := List.mem_flatten.1 hf
    obtain ⟨i, hi, rfl⟩ := List.mem_mapIdx.1 hfaults
    obtain ⟨g, hg, hplace⟩ :=
      exists_fieldFaults_renamed haccept Bars.nil i 0 s.variants[i].fields f hf
    have hmem : fieldFaults s.isVariant rename i s.variants[i].name [] 0 s.variants[i].fields ∈
        s.variants.mapIdx fun i v => fieldFaults s.isVariant rename i v.name [] 0 v.fields :=
      List.mem_mapIdx.2 ⟨i, hi, rfl⟩
    exact ⟨g, List.mem_append_right _ (List.mem_flatten.2 ⟨_, hmem, hg⟩), hplace⟩

end Renaming

/-- The name of the accepting method is its own title form. -/
theorem titleWords_acceptName : titleWords acceptName = acceptName := by decide +kernel

/-- Where a schema has a fault as its fields are written, it has one in title case. -/
theorem Schema.exists_faults_titled (s : Schema) :
    ∀ f ∈ s.faults false, ∃ g ∈ s.faults true, g.place = f.place :=
  s.exists_faults_renamed titleWords_acceptName

/-- The identifiers under which the fields of a legal schema are emitted are different in each
variant, and none is that of the accepting method. -/
theorem Schema.IsLegal.idents_file {o : Options} {s : Schema} (h : s.IsLegal o.exportFields) :
    ∀ v ∈ (o.file s).variants,
      (v.fields.map (·.ident)).Nodup ∧ acceptName ∉ v.fields.map (·.ident) := by
  intro v hv
  rw [variants_file] at hv
  obtain ⟨w, hw, rfl⟩ := List.mem_map.1 hv
  have hidents (r : String) :
      (Emission.VariantSource.of o.exportFields r w.classify).fields.map (·.ident) =
        w.fields.map fun f => fieldIdent o.exportFields f.name := by
    simp [Emission.VariantSource.of, Emission.FieldSource.of, Variant.classify, Field.classify,
      Function.comp_def]
  rw [hidents]
  refine ⟨(h.variants w hw).nodup, fun hmem => ?_⟩
  obtain ⟨f, hf, haccept⟩ := List.mem_map.1 hmem
  exact ((h.variants w hw).fields f hf).ne_accept haccept

/-- Putting field names into title case only restricts. Every place at which the check of a schema
reports something for the names as they are written is one at which it does so for their title
forms, so that a schema which passes the check in title case passes it without. When it passes the
check that the options ask for, the struct fields of each variant of its file have different
identifiers, none of which is that of the accepting method. -/
theorem faults_exported (s : Schema) :
    (∀ f ∈ s.check false false, ∃ g ∈ s.check true false, g.place = f.place) ∧
      (∀ failFast, s.check true failFast = [] → s.check false failFast = []) ∧
      ∀ o : Options, s.check o.exportFields o.failFast = [] → ∀ v ∈ (o.file s).variants,
        (v.fields.map (·.ident)).Nodup ∧ acceptName ∉ v.fields.map (·.ident) := by
  refine ⟨s.exists_faults_titled, fun failFast h => ?_, fun o h => ?_⟩
  · rw [Schema.check_eq_nil_iff] at h ⊢
    refine List.eq_nil_iff_forall_not_mem.2 fun f hf => ?_
    obtain ⟨g, hg, -⟩ := s.exists_faults_titled f hf
    rw [h] at hg
    exact absurd hg List.not_mem_nil
  · exact (Schema.faults_eq_nil_iff.1 (Schema.check_eq_nil_iff.1 h)).idents_file

/-- Beside the two fields that have a fault as they are written, title case makes one field the
accepting method and another one a repetition. Two fields that pass in title case pass without. -/
theorem faults_exported_accept :
    let s : Schema := ⟨[⟨"A", [⟨"T", "accept", .leaf⟩, ⟨"T", "x", .leaf⟩, ⟨"T", "X", .leaf⟩,
      ⟨"T", "x", .leaf⟩, ⟨"T", "Accept", .leaf⟩]⟩]⟩
    let t : Schema := ⟨[⟨"A", [⟨"T", "accepts", .leaf⟩, ⟨"T", "x", .leaf⟩]⟩]⟩
    (s.check false false).map (·.place) = [.field 0 3, .field 0 4] ∧
      (s.check true false).map (·.place) = [.field 0 0, .field 0 2, .field 0 3, .field 0 4] ∧
      (∀ f ∈ s.check false false, ∃ g ∈ s.check true false, g.place = f.place) ∧
      t.check true false = [] ∧ t.check false false = [] := by
  intro s t
  have ht : t.check true false = [] := by decide +kernel
  exact ⟨by decide +kernel, by decide +kernel, (faults_exported s).1, ht,
    (faults_exported t).2.1 false ht⟩

end NodeFamily
