import NodeFamily.Proofs.Emission.Determinacy

/-!
# The head of a generated text

A generated text begins with the opening comment, an empty line and the package clause, as long as
the generator's name is one line (`generateSchema_head`). The name is copied into the comment as it
is. A line feed in it ends the comment, and a form feed takes the empty line away; neither is
refused, since the rest of the text may be a source file all the same.
-/

namespace NodeFamily

open Outline

namespace Emission

variable {f : SourceFile}

/-- The opening comment has a character other than a carriage return when the generator's name has
it, where no other part of the comment does. -/
theorem SourceFile.mem_header_iff {c : Char} (hreturn : c ≠ '\r')
    (hfront : c ∉ headerStart.toList) (hback : c ∉ headerEnd.toList) :
    c ∈ f.header.toList ↔ c ∈ f.generatorName.toList := by
  unfold header headerText
  simp [hreturn, hfront, hback, Text.Raw.toList]

/-- The default generator aside, the name that the file gives is the one that was asked for. -/
theorem SourceFile.mem_generatorName_iff {c : Char} (hdefault : c ∉ defaultGenerator.toList) :
    c ∈ f.generatorName.toList ↔ c ∈ f.generator.toList := by
  rw [generatorName]
  split_ifs with hempty
  · simp [hempty, hdefault]
  · rfl

/-- A line feed in the generator's name stands in the opening comment. -/
theorem SourceFile.newline_mem_header_iff :
    '\n' ∈ f.header.toList ↔ '\n' ∈ f.generator.toList :=
  (mem_header_iff (by decide) (by decide) (by decide)).trans (mem_generatorName_iff (by decide))

/-- A form feed in the generator's name stands in the opening comment. -/
theorem SourceFile.feed_mem_header_iff :
    '\x0c' ∈ f.header.toList ↔ '\x0c' ∈ f.generator.toList :=
  (mem_header_iff (by decide) (by decide) (by decide)).trans (mem_generatorName_iff (by decide))

/-- The first lines of a plain file: its opening comment, an empty line unless the generator's name
has a form feed in it, and the package clause. -/
theorem SourceFile.exists_linesOf_text (h : f.isPlain = true) :
    ∃ rest, linesOf f.text = f.header :: (if '\x0c' ∈ f.generator.toList then [] else [""]) ++
      ("package " ++ f.package) :: rest := by
  rw [linesOf_text h, f.intercalate_blocks]
  simp only [List.contains_iff_mem, feed_mem_header_iff, List.append_assoc, List.cons_append]
  exact ⟨_, rfl⟩

/-- No line of a text has a line feed in it. -/
theorem newline_not_mem_of_mem_linesOf {text line : String} (h : line ∈ linesOf text) :
    '\n' ∉ line.toList := by
  obtain ⟨piece, hpiece, rfl⟩ := List.mem_map.1 h
  rw [String.toList_ofList]
  exact Text.not_mem_of_mem_cutAt hpiece

/-- The package clause is not an empty line. -/
theorem package_ne_empty (package : String) : "package " ++ package ≠ "" := by
  intro hempty
  have hhead := congrArg (·.toList.head?) hempty
  exact absurd hhead (by simp)

end Emission

open Emission

/-- The head of a generated text. When a text is generated, it begins with the opening comment on
one line, which names the generator and has lost the carriage returns, an empty line and the line
with the package clause, exactly when the generator's name has neither a line feed nor a form feed
in it. With a form feed alone it is the empty line that is missing. Nothing else in the name, such
as the marks of comments, does any harm. -/
theorem generateSchema_head {o : Options} {s : Schema} {code : String}
    (h : generateSchema o (some s) = .ok code) :
    let generator : Text.Raw := if o.generator = ("" : Text.Raw) then defaultGenerator else
      o.generator
    let package := if o.package = "" then defaultPackage else o.package
    let header := String.ofList
      (("// Code generated by " ++ generator.shown ++ ". DO NOT EDIT.").toList.filter (· ≠ '\r'))
    ([header, "", "package " ++ package] <+: linesOf code ↔
        '\n' ∉ o.generator.toList ∧ '\x0c' ∉ o.generator.toList) ∧
      ('\n' ∉ o.generator.toList → ∃ rest, linesOf code =
        header :: (if '\x0c' ∈ o.generator.toList then [] else [""]) ++
          ("package " ++ package) :: rest) := by
  intro generator package header
  have hheader : header = (o.file s).header := rfl
  -- Without a line feed in the name, what comes out is the text of a plain file.
  have hlines : '\n' ∉ o.generator.toList → ∃ rest, linesOf code =
      header :: (if '\x0c' ∈ o.generator.toList then [] else [""]) ++
        ("package " ++ package) :: rest := by
    intro hbreak
    obtain ⟨-, -, hplain, rfl⟩ := (generateSchema_eq_ok_iff hbreak).1 h
    exact SourceFile.exists_linesOf_text hplain
  refine ⟨⟨fun hhead => ?_, fun ⟨hbreak, hfeed⟩ => ?_⟩, hlines⟩
  · -- The comment is a line of the text, and no line has a line feed in it.
    have hbreak : '\n' ∉ o.generator.toList := by
      have hline := newline_not_mem_of_mem_linesOf (hhead.subset List.mem_cons_self)
      rwa [hheader, SourceFile.newline_mem_header_iff] at hline
    refine ⟨hbreak, fun hfeed => ?_⟩
    -- With a form feed the second line is the package clause.
    obtain ⟨rest, hrest⟩ := hlines hbreak
    rw [hrest, if_pos hfeed] at hhead
    obtain ⟨tail, htail⟩ := hhead
    obtain ⟨-, htail⟩ := List.cons.inj htail
    exact package_ne_empty _ (List.cons.inj htail).1.symm
  · obtain ⟨rest, hrest⟩ := hlines hbreak
    rw [hrest, if_neg hfeed]
    exact ⟨rest, rfl⟩

/-- Marks of comments, a carriage return and a backslash in the generator's name. -/
theorem generateSchema_head_marks :
    let o : Options := { package := "lox", generator := "a */ \r// b \\ /*" }
    let s : Schema := ⟨[⟨"A", [⟨"Token", "t", .leaf⟩]⟩]⟩
    ∃ code, generateSchema o (some s) = .ok code ∧
      ["// Code generated by a */ // b \\ /*. DO NOT EDIT.", "", "package lox"] <+:
        linesOf code := by
  intro o s
  have hcode : generateSchema o (some s) = .ok (o.file s).text :=
    generateSchema_of_isPlain (by decide) (by decide +kernel) (by decide +kernel)
  have hhead := (generateSchema_head hcode).1.2 (by decide)
  have hlines : [String.ofList (("// Code generated by " ++ Text.Raw.shown (if o.generator =
      ("" : Text.Raw) then defaultGenerator else o.generator) ++ ". DO NOT EDIT.").toList.filter
        (· ≠ '\r')), "", "package " ++ (if o.package = "" then defaultPackage else o.package)] =
      ["// Code generated by a */ // b \\ /*. DO NOT EDIT.", "", "package lox"] := by
    decide +kernel
  rw [← hlines]
  exact ⟨_, hcode, hhead⟩

/-- A form feed in the generator's name is accepted, and the package clause stands on the second
line. -/
theorem generateSchema_head_feed :
    let o : Options := { generator := "a\x0cb" }
    let s : Schema := ⟨[⟨"A", [⟨"Token", "t", .leaf⟩]⟩]⟩
    ∃ code, generateSchema o (some s) = .ok code ∧
      (linesOf code).take 2 = ["// Code generated by a\x0cb. DO NOT EDIT.", "package ast"] := by
  intro o s
  have hplain : (o.file s).isPlain = true := by decide +kernel
  have hcode : generateSchema o (some s) = .ok (o.file s).text :=
    generateSchema_of_isPlain (by decide) (by decide +kernel) hplain
  obtain ⟨rest, hrest⟩ := SourceFile.exists_linesOf_text hplain
  have hheader : (o.file s).header = "// Code generated by a\x0cb. DO NOT EDIT." := by
    decide +kernel
  refine ⟨_, hcode, ?_⟩
  rw [hrest, hheader, if_pos (by decide)]
  rfl

end NodeFamily
