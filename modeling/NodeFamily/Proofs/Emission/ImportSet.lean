import NodeFamily.Proofs.Emission.Determinacy

/-!
# Only the set of imports matters

The imports may come in any order, with repetitions and empty texts among them: the file has one
block of the paths that are not empty, each once and in strictly ascending order, or no import at
all (`generateSchema_imports`). The block depends on the set of paths, and nothing else that is
generated or refused depends on the imports (`generateSchema_congr`).

The block is read off the lines of the text by `importBlocks`, which skips no line that begins like
an import. No other line does, because each has another letter at its front.
-/

namespace NodeFamily

open Outline

namespace Emission

/-! ## The import blocks of a text -/

/-- Whether a line begins like an import. -/
def isImportLine (line : String) : Bool := "import".toList.isPrefixOf line.toList

/-- The import blocks that lines show, each with the lines up to the one that closes it. An import
that is no block is a block of its own. -/
def importBlocks : List String → List (List String)
  | [] => []
  | line :: below =>
    if line = "import (" then below.takeWhile (· ≠ ")") :: importBlocks below
    else if isImportLine line then [line] :: importBlocks below
    else importBlocks below

/-- A line that begins with another letter is no import. -/
theorem isImportLine_eq_false {line : String} (h : line.toList.head? ≠ some 'i') :
    isImportLine line = false := by
  rw [← Bool.not_eq_true, isImportLine, List.isPrefixOf_iff_prefix]
  rintro ⟨rest, hrest⟩
  exact h (by rw [← hrest]; rfl)

/-- Lines that begin with other letters show no import block. -/
theorem importBlocks_append {lines : List String}
    (h : ∀ line ∈ lines, line.toList.head? ≠ some 'i') (rest : List String) :
    importBlocks (lines ++ rest) = importBlocks rest := by
  induction lines with
  | nil => rfl
  | cons line lines ih =>
    obtain ⟨hline, hlines⟩ := List.forall_mem_cons.1 h
    have hne : line ≠ "import (" := by
      rintro rfl
      exact hline (by decide)
    rw [List.cons_append, importBlocks, if_neg hne, isImportLine_eq_false hline,
      if_neg Bool.false_ne_true, ih hlines]

/-- The lines of a variant begin with other letters than an import. -/
theorem VariantSource.head?_ne_of_mem_blocks {r : String} {v : VariantSource} :
    ∀ block ∈ v.blocks true r, ∀ line ∈ block, line.toList.head? ≠ some 'i' := by
  have hfields : ∀ line ∈ FieldSource.structLines true v.fields,
      line.toList.head? ≠ some 'i' := by
    refine List.forall_mem_map.2 fun f _ => ?_
    simp [FieldSource.structLine]
  have hstruct : ∀ line ∈ v.structBlock true r, line.toList.head? ≠ some 'i' := by
    refine List.forall_mem_append.2 ⟨List.forall_mem_append.2 ⟨?_, hfields⟩, by simp⟩
    simp
  simp only [VariantSource.blocks, List.forall_mem_cons]
  refine ⟨hstruct, ?_, ?_, ?_, by simp⟩
  · simp [VariantSource.nodeBlock]
  · simp [VariantSource.acceptBlock]
  · simp [VariantSource.constructorBlock]

/-- The lines after the imports begin with other letters. -/
theorem SourceFile.head?_ne_of_mem_blocks (f : SourceFile) :
    ∀ block ∈ nodeInterface (resultParam f.schema) ::
        visitorInterface (resultParam f.schema) f.variants ::
          f.variants.flatMap (VariantSource.blocks true (resultParam f.schema)),
      ∀ line ∈ block, line.toList.head? ≠ some 'i' := by
  have hmethods : ∀ line ∈ f.variants.map (VariantSource.visitorLine (resultParam f.schema)),
      line.toList.head? ≠ some 'i' := by
    refine List.forall_mem_map.2 fun v _ => ?_
    simp [VariantSource.visitorLine]
  refine List.forall_mem_cons.2 ⟨by simp [nodeInterface], List.forall_mem_cons.2 ⟨?_, ?_⟩⟩
  · refine List.forall_mem_append.2 ⟨List.forall_mem_append.2 ⟨by simp, hmethods⟩, by simp⟩
  · intro block hblock
    obtain ⟨v, -, hblock⟩ := List.mem_flatMap.1 hblock
    exact v.head?_ne_of_mem_blocks block hblock

/-- The lines of the blocks from the imports on show one import block, or none when there is nothing
to import. -/
theorem importBlocks_intercalate (paths : List String) {next : List String}
    {blocks : List (List String)}
    (h : ∀ block ∈ next :: blocks, ∀ line ∈ block, line.toList.head? ≠ some 'i')
    (rest : List String) :
    importBlocks (List.intercalate [""] (importBlock paths ++ next :: blocks) ++ rest) =
      (if paths = [] then [] else [paths.map fun p => "\t" ++ Text.quote p]) ++
        importBlocks rest := by
  have hlines : ∀ line ∈ List.intercalate [""] (next :: blocks), line.toList.head? ≠ some 'i' :=
    forall_mem_intercalate (by simp) h
  by_cases hne : paths = []
  · rw [if_pos hne, hne]
    exact importBlocks_append hlines rest
  · -- What follows the opening line is skipped.
    have hbelow : ∀ line ∈ (paths.map fun p => "\t" ++ Text.quote p) ++
        ")" :: "" :: List.intercalate [""] (next :: blocks), line.toList.head? ≠ some 'i' := by
      refine List.forall_mem_append.2 ⟨List.forall_mem_map.2 fun p _ => by simp, ?_⟩
      exact List.forall_mem_cons.2 ⟨by simp, List.forall_mem_cons.2 ⟨by simp, hlines⟩⟩
    rw [if_neg hne, intercalate_importBlock hne, List.cons_append, importBlocks, if_pos rfl,
      importBlocks_append hbelow, List.append_assoc, List.cons_append,
      takeWhile_body (ne_close_of_mem_paths paths), List.singleton_append]

/-- The import blocks of the text of a plain file. -/
theorem SourceFile.importBlocks_linesOf_text {f : SourceFile} (h : f.isPlain = true) :
    importBlocks (linesOf f.text) =
      if importPaths f.imports = [] then []
      else [(importPaths f.imports).map fun p => "\t" ++ Text.quote p] := by
  have hfront : ∀ line ∈ f.header :: (if f.header.toList.contains '\x0c' then [] else [""]) ++
      ["package " ++ f.package, ""], line.toList.head? ≠ some 'i' := by
    rw [List.cons_append, List.forall_mem_cons, f.head?_header, List.forall_mem_append]
    refine ⟨by simp, ?_, by simp⟩
    split_ifs <;> simp
  have hlast : ∀ line ∈ [""], line.toList.head? ≠ some 'i' := by simp
  have hlines : linesOf f.text =
      (f.header :: (if f.header.toList.contains '\x0c' then [] else [""]) ++
        ["package " ++ f.package, ""]) ++
      (List.intercalate [""] (importBlock (importPaths f.imports) ++
        nodeInterface (resultParam f.schema) ::
          (visitorInterface (resultParam f.schema) f.variants ::
            f.variants.flatMap (VariantSource.blocks true (resultParam f.schema)))) ++ [""]) := by
    rw [f.linesOf_text h, f.intercalate_blocks]
    simp only [List.append_assoc, List.cons_append, List.nil_append]
  have hend : importBlocks [""] = [] := importBlocks_append hlast []
  rw [hlines, importBlocks_append hfront, importBlocks_intercalate _ f.head?_ne_of_mem_blocks,
    hend, List.append_nil]

end Emission

open Emission

/-- The file of a legal schema is rendered in the same way for imports with the same set of paths. -/
theorem render?_file_congr {o : Options} {s : Schema} (h : s.IsLegal o.exportFields)
    (hpackage : o.package = "" ∨ isIdentifier o.package = true)
    (hgenerator : '\n' ∉ o.generator.toList) {imports : List String}
    (hset : ∀ p, p ≠ "" → (p ∈ o.imports ↔ p ∈ imports)) :
    (o.file s).render? = (Options.file { o with imports := imports } s).render? := by
  by_cases hplain : (o.file s).isPlain = true
  · -- Whether a file is plain has nothing to do with its imports.
    have hplain' : (Options.file { o with imports := imports } s).isPlain = true := hplain
    have htext : (o.file s).text = (Options.file { o with imports := imports } s).text := by
      have hpaths : importPaths (o.file s).imports =
          importPaths (Options.file { o with imports := imports } s).imports :=
        importPaths_congr hset
      unfold SourceFile.text
      rw [hpaths]
      rfl
    rw [SourceFile.render?, if_pos hplain, SourceFile.render?, if_pos hplain', htext]
  · -- A file that is not plain has no layout, whatever it imports.
    have hnone : ∀ imports, (Options.file { o with imports := imports } s).render? = none := by
      intro imports
      have hplain' : (Options.file { o with imports := imports } s).isPlain = false :=
        Bool.eq_false_iff.2 hplain
      rw [SourceFile.render?_eq]
      exact format?_draft_of_not_isPlain h hpackage hgenerator hplain'
    exact (hnone o.imports).trans (hnone imports).symm

/-- Files with the same package that are rendered in the same way are written in the same way. -/
theorem renderFile_congr (f g : SourceFile) (hpackage : f.package = g.package)
    (hrender : f.render? = g.render?) :
    renderFile f.package f.generator f.imports f.exportFields (some f.schema) =
      renderFile g.package g.generator g.imports g.exportFields (some g.schema) := by
  unfold renderFile
  dsimp only
  refine ite_congr (by rw [hpackage]) (fun _ => rfl) fun _ => ?_
  rw [hrender]

/-- What is generated depends on the set of imports only. -/
theorem generateSchema_congr {o : Options} (hgenerator : '\n' ∉ o.generator.toList)
    {imports : List String} (hset : ∀ p, p ≠ "" → (p ∈ o.imports ↔ p ∈ imports))
    (schema? : Option Schema) :
    generateSchema o schema? = generateSchema { o with imports := imports } schema? := by
  cases schema? with
  | none => rfl
  | some s =>
    unfold generateSchema
    dsimp only
    -- Before the file is written no check looks at the imports.
    refine ite_congr rfl (fun _ => rfl) fun _ => ite_congr rfl (fun _ => rfl) fun hcheck =>
      ite_congr rfl (fun _ => rfl) fun hident => ?_
    have hlegal : s.IsLegal o.exportFields := by
      have hnone : s.check o.exportFields o.failFast = [] := by simpa using hcheck
      exact Schema.faults_eq_nil_iff.1 (Schema.check_eq_nil_iff.1 hnone)
    have hpackage : o.package = "" ∨ isIdentifier o.package = true := by
      by_cases hdefault : o.package = ""
      · exact .inl hdefault
      · simpa [hdefault] using hident
    exact renderFile_congr (o.file s) (Options.file { o with imports := imports } s) rfl
      (render?_file_congr hlegal hpackage hgenerator hset)

/-- What is generated depends on the set of imports only, when the generator's name has no line
break in it: import lists with the same paths that are not empty give the same text, or the same
failure. The text has one import block, or none when there is nothing to import. It has a line for
each of these paths, quoted, and the paths ascend strictly. -/
theorem generateSchema_imports {o : Options} (hgenerator : '\n' ∉ o.generator.toList)
    {imports : List String} (hset : ∀ p, p ≠ "" → (p ∈ o.imports ↔ p ∈ imports))
    (schema? : Option Schema) :
    generateSchema o schema? = generateSchema { o with imports := imports } schema? ∧
      ∀ code, generateSchema o schema? = .ok code → ∃ paths : List String,
        paths.Pairwise (· < ·) ∧ (∀ p, p ∈ paths ↔ p ∈ o.imports ∧ p ≠ "") ∧
          importBlocks (linesOf code) =
            if paths = [] then [] else [paths.map fun p => "\t" ++ Text.quote p] := by
  refine ⟨generateSchema_congr hgenerator hset schema?, fun code hcode => ?_⟩
  cases schema? with
  | none => exact absurd hcode (by simp [generateSchema])
  | some s =>
    obtain ⟨-, -, hplain, rfl⟩ := (generateSchema_eq_ok_iff hgenerator).1 hcode
    exact ⟨importPaths o.imports, pairwise_importPaths _, fun p => mem_importPaths,
      SourceFile.importBlocks_linesOf_text hplain⟩

/-- Two paths of which the one that is less is quoted as the greater text, in another order, with a
repetition and an empty text among them. -/
theorem generateSchema_imports_tab :
    let o : Options := { imports := ["a b", "", "a\tb", "a b"] }
    let s : Schema := ⟨[⟨"A", [⟨"T", "x", .leaf⟩]⟩]⟩
    ∃ code, generateSchema o (some s) = .ok code ∧
      generateSchema { o with imports := ["a\tb", "a b"] } (some s) = .ok code ∧
      Text.quote "a b" < Text.quote "a\tb" ∧
      importBlocks (linesOf code) = [["\t\"a\\tb\"", "\t\"a b\""]] := by
  intro o s
  have hgenerate : generateSchema o (some s) = .ok (o.file s).text :=
    generateSchema_of_isPlain (by decide) (by decide +kernel) (by decide +kernel)
  have hset : ∀ p, p ≠ "" → (p ∈ o.imports ↔ p ∈ ["a\tb", "a b"]) := by
    intro p hp
    simp only [o, List.mem_cons, List.not_mem_nil, or_false]
    tauto
  obtain ⟨hsame, hblocks⟩ := generateSchema_imports (o := o) (by decide) hset (some s)
  obtain ⟨paths, hascending, hmem, himports⟩ := hblocks _ hgenerate
  obtain rfl : paths = importPaths o.imports :=
    eq_of_ascending hascending (pairwise_importPaths _) fun p => (hmem p).trans mem_importPaths.symm
  have hpaths : importPaths o.imports = ["a\tb", "a b"] := by decide +kernel
  refine ⟨_, hgenerate, hsame.symm.trans hgenerate, by decide +kernel, ?_⟩
  rw [himports, hpaths]
  decide +kernel

end NodeFamily
