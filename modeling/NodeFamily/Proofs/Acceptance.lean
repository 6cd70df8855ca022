import NodeFamily.Generation
import NodeFamily.Proofs.DeclarationGrammar
import NodeFamily.Proofs.Emission.StandardLayout

/-!
# What parses is generated

The rules that declarations are read by and the rules that a schema is checked by are the same
(`parse_iff`), so a schema that was read has no faults. They also let nothing but identifiers and
type names through, so that the file of such a schema is plain (`isPlain_file`) and nothing that the
layout asks of a source text can be missing from it. `generate_of_parse` puts both together.
-/

namespace NodeFamily

/-- The file that the options ask for. -/
def Options.file (o : Options) (s : Schema) : Emission.SourceFile :=
  ⟨if o.package = "" then defaultPackage else o.package, o.generator, o.imports, o.exportFields,
    s.classify⟩

/-- A legal type is the node type or a type name. -/
theorem IsLegalType.isTypeName {names : List String} {t : String} (h : IsLegalType names t) :
    t = nodeName ∨ isTypeName t = true := by
  rcases h with hnode | ⟨star, base, hstar, rfl, hbase, -⟩
  · exact .inl hnode
  · refine .inr (isTypeName_iff.2 ?_)
    rwa [typeBase_append hstar hbase]

/-- A legal field is plain once its mark is set, when it is emitted under an identifier. -/
theorem Field.IsLegal.isPlainField {checked exported : Bool} {names : List String}
    {variant : String} {f : Field} (h : f.IsLegal checked names variant)
    (hident : isIdentifier (fieldIdent exported f.name) = true) :
    Emission.isPlainField exported f.classify = true := by
  have htype : (f.classify.kind == .recursive || isTypeName f.type) = true := by
    rw [Bool.or_eq_true_iff, beq_iff_eq, Field.kind_classify_eq_recursive_iff]
    exact h.type.isTypeName
  have hname := Emission.isIdentifier_of_isName h.name
  exact Bool.and_eq_true_iff.2 ⟨Bool.and_eq_true_iff.2 ⟨hname, hident⟩, htype⟩

/-- The file of a legal schema is plain, when its package and its fields are identifiers and the
generator's name stays on its line. -/
theorem isPlain_file {o : Options} {s : Schema} {checked : Bool} {name : String}
    (h : s.IsLegal checked)
    (hident : ∀ v ∈ s.variants, ∀ f ∈ v.fields,
      isIdentifier (fieldIdent o.exportFields f.name) = true)
    (hpackage : o.package = "" ∨ isIdentifier o.package = true)
    (hname : o.generator.text? = some name)
    (hgenerator : ∀ c ∈ name.toList, c ≠ '\n' ∧ c ≠ '\x00' ∧ c ≠ '\ufeff') :
    (o.file s).isPlain = true := by
  have hvariants : ∀ v ∈ (o.file s).schema.variants,
      Emission.isPlainVariant o.exportFields v = true := by
    intro v hv
    obtain ⟨u, hu, rfl⟩ := List.mem_map.1 hv
    have hlegal := h.variants u hu
    refine Bool.and_eq_true_iff.2 ⟨Emission.isIdentifier_of_isName hlegal.name, ?_⟩
    refine List.all_eq_true.2 fun f hf => ?_
    obtain ⟨g, hg, rfl⟩ := List.mem_map.1 hf
    exact (hlegal.fields g hg).isPlainField (hident u hu g hg)
  have hident : isIdentifier (o.file s).package = true := by
    have hdefault : isIdentifier defaultPackage = true := by decide
    unfold Options.file
    dsimp only
    split_ifs with hempty
    · exact hdefault
    · exact hpackage.resolve_left hempty
  have hline : (o.file s).hasPlainGenerator = true := by
    have hdefault : ∀ c ∈ Emission.defaultGenerator.toList, c ≠ '\n' ∧ c ≠ '\x00' ∧ c ≠ '\ufeff' :=
      List.all_iff_forall_prop.1 (by decide)
    have hchars : ∃ name, (o.file s).generatorName.text? = some name ∧
        ∀ c ∈ name.toList, c ≠ '\n' ∧ c ≠ '\x00' ∧ c ≠ '\ufeff' := by
      unfold Emission.SourceFile.generatorName
      split_ifs
      · exact ⟨_, Text.Raw.text?_ofString _, hdefault⟩
      · exact ⟨name, hname, hgenerator⟩
    obtain ⟨name, hname, hchars⟩ := hchars
    refine Emission.SourceFile.hasPlainGenerator_iff.2 ⟨name, hname, fun c hc => ?_⟩
    obtain ⟨hbreak, hnull, hmark⟩ := hchars c hc
    simp [hbreak, hnull, hmark, Layout.isForbidden]
  exact Bool.and_eq_true_iff.2 ⟨Bool.and_eq_true_iff.2 ⟨hline, hident⟩, List.all_eq_true.2 hvariants⟩

/-- Nothing is reported exactly when there are no faults, whether all are asked for or the first
one. -/
theorem Schema.check_eq_nil_iff {s : Schema} {exported failFast : Bool} :
    s.check exported failFast = [] ↔ s.faults exported = [] := by
  cases failFast with
  | false => exact Iff.rfl
  | true =>
    rw [Schema.check, Schema.checkAs_failFast, List.take_eq_nil_iff]
    exact or_iff_right (by decide)

/-- Without faults nothing is reported. -/
theorem Schema.check_eq_nil {s : Schema} {exported : Bool} (h : s.faults exported = [])
    (failFast : Bool) : s.check exported failFast = [] :=
  Schema.check_eq_nil_iff.2 h

/-- A plain file is written as it is. -/
theorem renderFile_of_isPlain {f : Emission.SourceFile} (h : f.isPlain = true) :
    renderFile f.package f.generator f.imports f.exportFields (some f.schema) = .ok f.text := by
  have hnonempty : f.package ≠ "" := by
    intro hempty
    have hpackage := Emission.SourceFile.isIdentifier_package h
    rw [hempty] at hpackage
    exact absurd hpackage (by decide)
  have hrender : (Emission.SourceFile.mk f.package f.generator f.imports f.exportFields
      f.schema).render? = some f.text := if_pos h
  unfold renderFile
  dsimp only
  rw [if_neg hnonempty, hrender]

/-- A schema whose file is plain and which has variants but no faults leads to its file. -/
theorem generateSchema_of_isPlain {o : Options} {s : Schema} (hne : s.variants ≠ [])
    (hfaults : s.faults o.exportFields = []) (hplain : (o.file s).isPlain = true) :
    generateSchema o (some s) = .ok (o.file s).text := by
  have hpackage : isIdentifier (if o.package = "" then defaultPackage else o.package) = true :=
    Emission.SourceFile.isIdentifier_package (f := o.file s) hplain
  unfold generateSchema
  dsimp only
  rw [if_neg (by simpa using hne), Schema.check_eq_nil hfaults, if_neg (by simp), hpackage,
    if_neg (by simp)]
  exact renderFile_of_isPlain hplain

/-- A file that has a package but cannot be laid out is not written. -/
theorem renderFile_of_format?_eq_none {f : Emission.SourceFile} (hpackage : f.package ≠ "")
    (h : Layout.format? f.draft = none) :
    renderFile f.package f.generator f.imports f.exportFields (some f.schema) =
      .error .unformattable := by
  have hrender : (Emission.SourceFile.mk f.package f.generator f.imports f.exportFields
      f.schema).render? = none := (Emission.SourceFile.render?_eq f).trans h
  unfold renderFile
  dsimp only
  rw [if_neg hpackage, hrender]

/-- A schema without faults whose file has no layout leads to no file, for that reason. -/
theorem generateSchema_of_format?_eq_none {o : Options} {s : Schema} (hne : s.variants ≠ [])
    (hfaults : s.faults o.exportFields = [])
    (hpackage : o.package = "" ∨ isIdentifier o.package = true)
    (h : Layout.format? (o.file s).draft = none) :
    generateSchema o (some s) = .error .unformattable := by
  have hident : isIdentifier (o.file s).package = true := by
    change isIdentifier (if o.package = "" then defaultPackage else o.package) = true
    split_ifs with hempty
    · decide
    · exact hpackage.resolve_left hempty
  have hnonempty : (o.file s).package ≠ "" := by
    intro hempty
    rw [hempty] at hident
    exact absurd hident (by decide)
  unfold generateSchema
  dsimp only
  rw [if_neg (by simpa using hne), Schema.check_eq_nil hfaults, if_neg (by simp)]
  change (if !isIdentifier (o.file s).package then _ else _) = _
  rw [hident, if_neg (by simp)]
  exact renderFile_of_format?_eq_none hnonempty h

/-- What parses is generated. When declarations are read into a schema, and the options leave the
field names as they are, name a package by an identifier or not at all, and name a generator by a
text without a line break, a null character or a byte-order mark, the file of the schema is the
result, whatever the imports are. The check of names reports nothing on the schema, and the layout
does not fail: the result is the standard layout of the draft of the file. -/
theorem generate_of_parse (o : Options) (decls : List String) (failFast : Bool) (s : Schema)
    (hparse : parse failFast decls = .ok s) (hexport : o.exportFields = false)
    (hpackage : o.package = "" ∨ isIdentifier o.package = true)
    (name : String) (hname : o.generator.text? = some name)
    (hgenerator : ∀ c ∈ name.toList, c ≠ '\n' ∧ c ≠ '\x00' ∧ c ≠ '\ufeff') :
    generate o decls = .ok (o.file s).text ∧ (∀ stop, s.check false stop = []) ∧
      Layout.format? (o.file s).draft = some (o.file s).text := by
  obtain ⟨hdecls, hspells, hlegal⟩ := parse_iff.1 hparse
  have hfaults : s.faults false = [] := Schema.faults_eq_nil_iff.2 hlegal
  have hne : s.variants ≠ [] := by
    intro hnil
    rw [hnil, List.forall₂_nil_right_iff] at hspells
    exact hdecls hspells
  -- The rules for names let only identifiers and type names into the file.
  have hplain : (o.file s).isPlain = true := by
    refine isPlain_file (hexport ▸ hlegal) (fun v hv f hf => ?_) hpackage hname hgenerator
    rw [hexport]
    exact Emission.isIdentifier_of_isName ((hlegal.variants v hv).fields f hf).name
  refine ⟨?_, Schema.check_eq_nil hfaults, ?_⟩
  · -- The same schema is read whether reading stops at the first fault or not.
    rw [generate, parse_iff.2 ⟨hdecls, hspells, hlegal⟩]
    exact generateSchema_of_isPlain hne (hexport ▸ hfaults) hplain
  · exact Emission.SourceFile.format?_draft hplain

/-- Two declarations that read into a schema, with a package in another script, an import that has
to be quoted and a generator with a tab in its name. -/
theorem generate_of_parse_binary :
    let o : Options := { package := "δέντρο", imports := ["a\nb", ""], generator := "gen\tv2" }
    let decls := ["Binary : Expr left, *token.Token op", "Nil : any value"]
    parse false decls = .ok ⟨[⟨"Binary", [⟨"Expr", "left", .recursive⟩,
        ⟨"*token.Token", "op", .leaf⟩]⟩, ⟨"Nil", [⟨"any", "value", .leaf⟩]⟩]⟩ ∧
      ∃ code, generate o decls = .ok code := by
  intro o decls
  have hparse : parse false decls = .ok ⟨[⟨"Binary", [⟨"Expr", "left", .recursive⟩,
      ⟨"*token.Token", "op", .leaf⟩]⟩, ⟨"Nil", [⟨"any", "value", .leaf⟩]⟩]⟩ := by
    decide +kernel
  have hpackage : isIdentifier o.package = true := by decide +kernel
  have hgenerator : ∀ c ∈ "gen\tv2".toList, c ≠ '\n' ∧ c ≠ '\x00' ∧ c ≠ '\ufeff' :=
    List.all_iff_forall_prop.1 (by decide +kernel)
  exact ⟨hparse, _, (generate_of_parse o decls false _ hparse rfl (.inr hpackage) "gen\tv2"
    (Text.Raw.text?_ofString _) hgenerator).1⟩

/-- A generator named by an octet that is no character. The name has no line break, null character
or byte-order mark in it and the declaration parses, but the file has no layout and nothing is
generated. -/
theorem generate_octet :
    let o : Options := { generator := ⟨[0xff].toByteArray⟩ }
    let decls := ["A : Token t"]
    let s : Schema := ⟨[⟨"A", [⟨"Token", "t", .leaf⟩]⟩]⟩
    (∀ c ∈ o.generator.toList, c ≠ '\n' ∧ c ≠ '\x00' ∧ c ≠ '\ufeff') ∧
      parse false decls = .ok s ∧ Layout.format? (o.file s).draft = none ∧
      generate o decls = .error .unformattable := by
  intro o decls s
  have hchars : ∀ c ∈ o.generator.toList, c ≠ '\n' ∧ c ≠ '\x00' ∧ c ≠ '\ufeff' :=
    List.all_iff_forall_prop.1 (by decide +kernel)
  have hparse : parse false decls = .ok s := by decide +kernel
  have hname : o.generator.text? = none := by decide +kernel
  have hlayout : Layout.format? (o.file s).draft = none := by
    have hname : (o.file s).generatorName.text? = none := hname
    rw [Emission.SourceFile.format?_draft_eq, hname, Option.bind_none]
  refine ⟨hchars, hparse, hlayout, ?_⟩
  rw [generate, hparse]
  exact generateSchema_of_format?_eq_none (by decide) (by decide +kernel) (.inl rfl) hlayout

end NodeFamily
