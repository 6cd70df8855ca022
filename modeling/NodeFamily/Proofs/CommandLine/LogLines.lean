import NodeFamily.Proofs.CommandLine.Settings
import NodeFamily.Proofs.DeclarationGrammar

/-!
# Log lines beside printed results

Log lines go where the result of `generate` goes when it is printed. So `generate` shows none from
the moment on at which it knows that there is no file to write. Two kinds of lines come through all
the same: the line about the schema file, which is shown before that is known, and the lines about
the variants when the schema is printed although there is a file to write.
`log_eq_nil_iff` says when nothing but the result is printed.
-/

namespace NodeFamily.CommandLine

namespace Request

variable {r : Request} {t : FileTree}

/-- Log lines that are shown on demand only are shown when all are asked for. -/
theorem shown_eq_nil_iff {log : List LogLine} (hlevel : ∀ l ∈ log, l.level = .verbose) :
    r.shown log = [] ↔ r.verbose = false ∨ log = [] := by
  unfold shown
  rw [List.filter_eq_nil_iff]
  cases hverbose : r.verbose with
  | true => simp [List.eq_nil_iff_forall_not_mem]
  | false => simpa using hlevel

/-- Whether the line about the schema file is shown. -/
theorem loadedLog_eq_nil_iff {f : SchemaFile} :
    r.loadedLog f = [] ↔ r.verbose = false ∨ r.schemaPath = "" := by
  unfold loadedLog
  split_ifs with hpath
  · simp [hpath]
  · rw [shown_eq_nil_iff (by simp [loadedLine])]
    simp [hpath]

/-- When the schema is printed, the log is empty unless there are lines before that, or the variants
are told of. -/
theorem log_dumpPlan_eq_nil_iff {f : SchemaFile} {log : List LogLine}
    (h : ((r.dumpPlan f log).run t).1.output ≠ "") :
    ((r.dumpPlan f log).run t).1.log = [] ↔
      log = [] ∧ (r.verbose = false ∨ isPrinted f = true) := by
  unfold dumpPlan at h ⊢
  cases hparse : parse r.failFast f.variants with
  | error faults => simp [hparse, Plan.fail, Plan.run] at h
  | ok schema =>
    have hvariants : schema.variants.map variantLine ≠ [] :=
      mt List.map_eq_nil_iff.1 (variants_ne_nil_of_parse hparse)
    have hlevel : ∀ l ∈ schema.variants.map variantLine, l.level = .verbose := by
      simp [variantLine]
    simp only [Plan.run, List.append_eq_nil_iff]
    refine and_congr_right fun _ => ?_
    -- Only where the settings name a file to write are the variants told of.
    cases hprinted : isPrinted f with
    | true => simp
    | false => simp [shown_eq_nil_iff hlevel, hvariants]

/-- When the generated text is printed, the log is empty unless there are lines before that. -/
theorem log_codePlan {f : SchemaFile} {log : List LogLine}
    (h : ((r.codePlan f log).run t).1.output ≠ "") :
    ((r.codePlan f log).run t).1.log = log := by
  unfold codePlan at h ⊢
  cases hcode : generate (r.options f) f.variants with
  | error e => simp [hcode, Plan.fail, Plan.run] at h
  | ok code =>
    cases hprinted : isPrinted f with
    | true => simp [hcode, Plan.run]
    | false =>
      simp only [hcode, hprinted, Bool.false_eq_true, if_false] at h
      exact absurd (r.run_writePlan _ _ _ t).1 h

/-- When nothing is read, whether the result is printed can be told from the flags. -/
theorem isPrinted_mergeInto_empty (r : Request) :
    isPrinted (r.mergeInto {}) = true ↔ r.output = "" ∨ r.output = "-" := by
  have houtput : (r.mergeInto {}).output = r.output := by
    unfold mergeInto
    dsimp only
    split_ifs with hempty
    · exact hempty.symm
    · rfl
  simp [isPrinted, houtput]

/-- When generating prints its result, the log is empty exactly when not all lines are asked for, or
no schema file is named and, if the schema is printed, no file to write is named either. -/
theorem log_generatePlan_eq_nil_iff (h : (r.generatePlan.run t).1.output ≠ "") :
    (r.generatePlan.run t).1.log = [] ↔ r.verbose = false ∨ (r.schemaPath = "" ∧
      (r.dump = true → r.output = "" ∨ r.output = "-")) := by
  unfold generatePlan at h ⊢
  rcases r.run_load_cases (fun f log => if r.dump then r.dumpPlan f log else r.codePlan f log) t
    with ⟨c, hrun, -⟩ | ⟨file, hfile, hrun⟩
  · rw [hrun] at h
    exact absurd rfl h
  rw [hrun] at h ⊢
  cases hdump : r.dump with
  | false =>
    simp only [hdump, Bool.false_eq_true, if_false] at h ⊢
    rw [log_codePlan h, loadedLog_eq_nil_iff]
    simp
  | true =>
    simp only [hdump, if_true] at h ⊢
    rw [log_dumpPlan_eq_nil_iff h, loadedLog_eq_nil_iff, ← or_and_left]
    refine or_congr_right (and_congr_right fun hpath => ?_)
    -- Without a schema file the flags alone say which file is to be written.
    rw [eq_empty_of_schemaFile? hfile hpath, isPrinted_mergeInto_empty]
    simp

end Request

/-- When a command line of `generate` prints a result, which is a generated text or a schema, it
shows no log line beside it exactly in these cases: not all lines are asked for; or no schema file
is named and, where the schema is printed, the flags name no file to write. -/
theorem log_eq_nil_iff {t : FileTree} {arguments rest : List String} {a : Arguments}
    (hfind : Command.find arguments = .ok (.generate, rest))
    (hflags : Flag.parse Command.generate.flags rest = .ok a) (hhelp : a.isOn "help" = false)
    (hprinted : ((plan arguments).run t).1.output ≠ "") :
    ((plan arguments).run t).1.log = [] ↔
      a.isOn "verbose" = false ∨ (a.value "config" = "" ∧
        (a.isOn "dump-ir" = true → a.value "output" = "" ∨ a.value "output" = "-")) := by
  have hplan := plan_of_find (by decide) hfind hflags
  rw [hhelp, if_neg Bool.false_ne_true] at hplan
  cases hoperands : a.operands with
  | cons v operands =>
    rw [hplan, hoperands] at hprinted
    exact absurd rfl hprinted
  | nil =>
    rw [hoperands] at hplan
    rw [hplan] at hprinted ⊢
    exact Request.log_generatePlan_eq_nil_iff hprinted

/-- A schema that the flags give is printed alone, even where all lines are asked for. -/
theorem log_eq_nil_dump :
    let t : FileTree := ⟨[]⟩
    let arguments := ["-v", "generate", "--dump-ir", "-d", "A : Token t"]
    ((plan arguments).run t).1.output ≠ "" ∧ ((plan arguments).run t).1.log = [] := by
  intro t arguments
  let a : Arguments :=
    ⟨[⟨"verbose", "true"⟩, ⟨"dump-ir", "true"⟩, ⟨"decl", "A : Token t"⟩], []⟩
  have hfind : Command.find arguments =
      .ok (.generate, ["-v", "--dump-ir", "-d", "A : Token t"]) := by decide +kernel
  have hflags : Flag.parse Command.generate.flags ["-v", "--dump-ir", "-d", "A : Token t"] =
      .ok a := by decide +kernel
  have hprinted : ((plan arguments).run t).1.output ≠ "" := by decide +kernel
  have hnofile : a.value "config" = "" ∧
      (a.isOn "dump-ir" = true → a.value "output" = "" ∨ a.value "output" = "-") := by decide
  exact ⟨hprinted, (log_eq_nil_iff hfind hflags (by decide) hprinted).2 (.inr hnofile)⟩

/-- The line about the schema file stands before a generated text, and the line about a variant
before a schema that is printed although there is a file to write. -/
theorem log_before_output :
    let t : FileTree := ⟨[(["s.txt"], .file "A : Token t")]⟩
    let text := (plan ["generate", "-v", "-c", "s.txt"]).run t
    let schema := (plan ["generate", "-v", "--dump-ir", "-o", "a.go", "-d", "A : Token t"]).run t
    (text.1.complaint? = none ∧ text.1.output ≠ "" ∧
      text.1.log = [⟨.verbose, ["loaded", "s.txt", "with", "1", "declarations"]⟩]) ∧
      schema.1.complaint? = none ∧ schema.1.output ≠ "" ∧
        schema.1.log = [⟨.verbose, ["variant", "A", "recursive:", "false", "visit:",
          "visit_a_expr"]⟩] := by
  decide +kernel

end NodeFamily.CommandLine
