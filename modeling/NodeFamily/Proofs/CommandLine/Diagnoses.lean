import NodeFamily.Proofs.CommandLine.Settings
import NodeFamily.Proofs.FaultOrder
import NodeFamily.Proofs.SchemaFile.LineNumbers

/-!
# Diagnoses name the lines of the schema file

When a run fails because the schema breaks rules, its complaint has one entry for each fault. An
entry begins with the schema file and a line of it exactly when the fault is about a declaration of
a schema file of lines, and the declaration stands on that line (`diagnoses_name_lines`).

The faults come from reading the declarations, or from checking the schema that was read. In the
second case they count variants, which are as many as the declarations and in their order, so that
the index of a variant is that of the declaration that spells it (`Request.Raises`).
-/

namespace NodeFamily

/-! ## The declarations that faults are about -/

/-- A fault of declarations is about one of them, if it is about one at all. -/
theorem decl_lt_of_parse {failFast : Bool} {decls : List String} {faults : List Fault}
    (h : parse failFast decls = .error faults) {f : Fault} (hf : f ∈ faults) {i : Nat}
    (hi : f.place.decl? = some i) : i < decls.length := by
  rcases parse_eq_error_iff.1 h with ⟨-, rfl⟩ | ⟨hne, -, -⟩
  · obtain rfl := List.mem_singleton.1 hf
    exact absurd hi (by simp [noDeclarations, Place.decl?])
  · obtain ⟨k, d, hd, hmem⟩ := (mem_reportedFaults_iff hne).1 (mem_reportedFaults_of_parse h hf)
    have hwithin := (isWithin_of_mem_faultsOf hd hmem).1.decl_lt hi
    rwa [List.length_map] at hwithin

/-- A fault of a schema is about one of its variants. -/
theorem Schema.decl_lt_of_mem_faults {s : Schema} {exported : Bool} {f : Fault}
    (hf : f ∈ s.faults exported) {i : Nat} (hi : f.place.decl? = some i) :
    i < s.variants.length := by
  have hwithin := ((s.faults_apart exported).2 f hf).decl_lt hi
  rwa [List.length_map] at hwithin

namespace CommandLine

namespace Request

variable {r : Request} {t : FileTree}

/-! ## The faults that a run complains about -/

/-- The declarations that a request puts together: those of the schema file, and then its own. -/
def allDecls (r : Request) (file : SchemaFile) : List String := file.variants ++ r.decls

/-- Faults that come of a request. They are those of reading its declarations, or those of checking
the schema that was read, each variant of which is spelt by the declaration with the same index. -/
def Raises (r : Request) (file : SchemaFile) (faults : List Fault) : Prop :=
  parse r.failFast (r.allDecls file) = .error faults ∨
    ∃ s, parse r.failFast (r.allDecls file) = .ok s ∧
      List.Forall₂ Spells (r.allDecls file) s.variants ∧
      s.check (file.exportFields || r.exportFields) r.failFast = faults

/-- The faults that come of a request are about its declarations. -/
theorem Raises.decl_lt {file : SchemaFile} {faults : List Fault} (h : r.Raises file faults)
    {f : Fault} (hf : f ∈ faults) {i : Nat} (hi : f.place.decl? = some i) :
    i < (r.allDecls file).length := by
  rcases h with hparse | ⟨s, -, hspells, rfl⟩
  · exact decl_lt_of_parse hparse hf hi
  · rw [hspells.length_eq]
    exact Schema.decl_lt_of_mem_faults ((s.check_sublist _ _).subset hf) hi

/-- The faults for which nothing is generated come of the request. -/
theorem raises_of_generate {file : SchemaFile} {faults : List Fault}
    (h : generate (r.options (r.mergeInto file)) (r.allDecls file) = .error (.faulty faults)) :
    r.Raises file faults := by
  unfold generate at h
  split at h
  · next found hparse =>
    obtain rfl : found = faults := by simpa using h
    exact .inl hparse
  · next s hparse =>
    rcases generateSchema_eq_faulty h with ⟨hnone, -⟩ | ⟨s', hs, hcheck, -⟩
    · exact absurd (hnone s rfl) (variants_ne_nil_of_parse hparse)
    · obtain rfl : s = s' := by simpa using hs
      obtain ⟨-, hspells, -⟩ := parse_iff.1 hparse
      exact .inr ⟨s, hparse, hspells, hcheck⟩

/-- What is known when a run complains about faults. -/
structure Blames (r : Request) (t : FileTree) (file : SchemaFile) (ds : List Diagnosis) : Prop where
  /-- The schema file was read. -/
  read : r.schemaFile? t = some file
  /-- The faults come of the request. -/
  raises : r.Raises file (ds.map (·.fault))
  /-- Each of them is shown with its origin. -/
  origin : ∀ d ∈ ds, d.origin? = r.origin? (r.mergeInto file) d.fault

/-- Diagnosing faults that come of a request. -/
theorem Blames.of_diagnose {file : SchemaFile} (hread : r.schemaFile? t = some file)
    {faults : List Fault} (hraises : r.Raises file faults) {ds : List Diagnosis}
    (h : r.diagnose (r.mergeInto file) faults = .faulty ds) : r.Blames t file ds := by
  obtain rfl : faults.map (fun fault => ⟨r.origin? (r.mergeInto file) fault, fault⟩) = ds := by
    simpa [diagnose] using h
  refine ⟨hread, ?_, by simp⟩
  rw [List.map_map]
  simpa [Function.comp_def] using hraises

/-- A run that complains about faults has found them when it generated from its declarations, and
complains about just these. -/
def IsRefused (r : Request) (t : FileTree) (ds : List Diagnosis) : Prop :=
  ∃ file faults, r.schemaFile? t = some file ∧
    generate (r.options (r.mergeInto file)) (r.allDecls file) = .error (.faulty faults) ∧
    r.diagnose (r.mergeInto file) faults = .faulty ds

/-- What is known when a run is refused. -/
theorem IsRefused.exists_blames {ds : List Diagnosis} (h : r.IsRefused t ds) :
    ∃ file, r.Blames t file ds := by
  obtain ⟨file, faults, hread, hgenerate, hdiagnose⟩ := h
  exact ⟨file, .of_diagnose hread (raises_of_generate hgenerate) hdiagnose⟩

/-- Complaining about a failure for which nothing is generated. -/
theorem IsRefused.of_complain {file : SchemaFile} (hread : r.schemaFile? t = some file)
    {failure : Failure}
    (hgenerate : generate (r.options (r.mergeInto file)) (r.allDecls file) = .error failure)
    {ds : List Diagnosis} (h : r.complain (r.mergeInto file) failure = .faulty ds) :
    r.IsRefused t ds := by
  cases failure with
  | faulty faults => exact ⟨file, faults, hread, hgenerate, h⟩
  | packageNotIdentifier n => simp [complain] at h
  | noSchema => simp [complain] at h
  | noPackage => simp [complain] at h
  | unformattable => simp [complain] at h

/-- A run that complains about faults has come past the schema file. -/
theorem exists_settings {next : SchemaFile → List LogLine → Plan} {ds : List Diagnosis}
    (h : ((r.load next).run t).1.complaint? = some (.faulty ds)) :
    ∃ file, r.schemaFile? t = some file ∧
      ((next (r.mergeInto file) (r.loadedLog file)).run t).1.complaint? = some (.faulty ds) := by
  rcases r.run_load_cases next t with ⟨c, hrun, hc⟩ | ⟨file, hfile, hrun⟩
  · rw [hrun] at h
    exact absurd (Option.some.inj h) (hc ds)
  · exact ⟨file, hfile, hrun ▸ h⟩

/-- Comparing a file complains about that file if about anything. -/
theorem run_comparePlan (r : Request) (path want : String) (log : List LogLine) (t : FileTree)
    (ds : List Diagnosis) :
    ((r.comparePlan path want log).run t).1.complaint? ≠ some (.faulty ds) := by
  unfold comparePlan
  rw [Plan.run]
  split
  · split_ifs <;> simp [Plan.fail, Plan.run]
  · split_ifs
    · simp [Plan.run]
    · split <;> simp [Plan.fail, Plan.run]

/-- Generating complains about faults only when it is refused. -/
theorem isRefused_of_generatePlan {ds : List Diagnosis}
    (h : (r.generatePlan.run t).1.complaint? = some (.faulty ds)) : r.IsRefused t ds := by
  obtain ⟨file, hread, h⟩ := exists_settings h
  split_ifs at h
  · unfold dumpPlan at h
    split at h
    · next faults hparse =>
      -- What keeps the schema from being read would keep the file from being generated.
      have hgenerate : generate (r.options (r.mergeInto file)) (r.allDecls file) =
          .error (.faulty faults) := by
        have hsettings : parse (r.options (r.mergeInto file)).failFast (r.allDecls file) =
            .error faults := hparse
        rw [generate, hsettings]
      exact ⟨file, faults, hread, hgenerate, Option.some.inj h⟩
    · simp [Plan.run] at h
  · unfold codePlan at h
    dsimp only at h
    split at h
    · next failure hgenerate => exact .of_complain hread hgenerate (Option.some.inj h)
    · split_ifs at h
      · simp [Plan.run] at h
      · exact absurd h ((r.run_writePlan _ _ _ t).2 ds)

/-- Checking complains about faults only when it is refused. -/
theorem isRefused_of_checkPlan {ds : List Diagnosis}
    (h : (r.checkPlan.run t).1.complaint? = some (.faulty ds)) : r.IsRefused t ds := by
  obtain ⟨file, hread, h⟩ := exists_settings h
  dsimp only at h
  split_ifs at h
  · simp [Plan.fail, Plan.run] at h
  · split at h
    · next failure hgenerate => exact .of_complain hread hgenerate (Option.some.inj h)
    · exact absurd h (r.run_comparePlan _ _ _ t ds)

/-- Generating complains about faults of the request only. -/
theorem blames_of_generatePlan {ds : List Diagnosis}
    (h : (r.generatePlan.run t).1.complaint? = some (.faulty ds)) : ∃ file, r.Blames t file ds :=
  (isRefused_of_generatePlan h).exists_blames

/-- Checking complains about faults of the request only. -/
theorem blames_of_checkPlan {ds : List Diagnosis}
    (h : (r.checkPlan.run t).1.complaint? = some (.faulty ds)) : ∃ file, r.Blames t file ds :=
  (isRefused_of_checkPlan h).exists_blames

/-! ## Entries -/

/-- What the entry about a fault says. When the fault is about a declaration of a schema file of
lines, the entry begins with the path of that file and the line on which the declaration stands.
Otherwise it is about another declaration, or about none, or the schema file has another format, and
the entry is the message of the fault alone. -/
inductive IsEntry (r : Request) (t : FileTree) (file : SchemaFile) (w : Wording) (fault : Fault) :
    String → Prop
  /-- The declaration stands on a line. -/
  | onLine (i : Nat) (content decl : String) (n : Nat) (hdecl : fault.place.decl? = some i)
    (hfile : i < file.variants.length) (hformat : Format.ofPath r.schemaPath = .text)
    (hread : t.read r.schemaPath = .ok content) (hi : (r.allDecls file)[i]? = some decl)
    (hline : SchemaFile.StandsOn content i decl n) :
    IsEntry r t file w fault (r.schemaPath ++ ":" ++ toString n ++ ": " ++ fault.message w)
  /-- The declaration stands on no line, or there is none. -/
  | alone (h : ∀ i, fault.place.decl? = some i → Format.ofPath r.schemaPath = .text →
      file.variants.length ≤ i) :
    IsEntry r t file w fault (fault.message w)

/-- A schema file that is named and was read has the content of a file. -/
theorem exists_content {file : SchemaFile} (hread : r.schemaFile? t = some file)
    (hpath : r.schemaPath ≠ "") : ∃ content, t.read r.schemaPath = .ok content ∧
      SchemaFile.ofContent (some (Format.ofPath r.schemaPath)) content = .ok file := by
  rw [schemaFile?, if_neg hpath] at hread
  split at hread
  · simp at hread
  · next content hcontent =>
    refine ⟨content, hcontent, ?_⟩
    cases hfile : SchemaFile.ofContent (some (Format.ofPath r.schemaPath)) content with
    | error e => simp [hfile, Except.toOption] at hread
    | ok g =>
      rw [hfile] at hread
      rw [Option.some.inj hread]

/-- Where nothing is known of the origin, a diagnosis is shown as the message of its fault. -/
theorem message_of_line_eq_zero {file : SchemaFile} (w : Wording) {d : Diagnosis}
    (horigin : d.origin? = r.origin? (r.mergeInto file) d.fault)
    (hnone : ∀ i, d.fault.place.decl? = some i → file.line i = 0 ∨ r.schemaPath = "") :
    d.message w = d.fault.message w := by
  have horigin' : d.origin? = none := by
    rw [horigin, origin?]
    split
    · rfl
    · next i hi => exact if_pos (hnone i hi)
  rw [Diagnosis.message, horigin']

/-- Where the line of a declaration is known, a diagnosis about it begins with that line. -/
theorem message_of_line_pos {file : SchemaFile} (w : Wording) {d : Diagnosis}
    (horigin : d.origin? = r.origin? (r.mergeInto file) d.fault) (hpath : r.schemaPath ≠ "")
    {i : Nat} (hdecl : d.fault.place.decl? = some i) (hpos : 0 < file.line i) :
    d.message w = r.schemaPath ++ ":" ++ toString (file.line i) ++ ": " ++ d.fault.message w := by
  have hknown : ¬((r.mergeInto file).line i = 0 ∨ r.schemaPath = "") := by
    rintro (hzero | hempty)
    · exact hpos.ne' hzero
    · exact hpath hempty
  have horigin' : d.origin? = some (r.schemaPath, file.line i) := by
    rw [horigin, origin?, hdecl]
    exact if_neg hknown
  rw [Diagnosis.message, horigin']

/-- A diagnosis with the origin of its fault is shown as the entry about it. -/
theorem isEntry_message {file : SchemaFile} (hread : r.schemaFile? t = some file) (w : Wording)
    {d : Diagnosis} (horigin : d.origin? = r.origin? (r.mergeInto file) d.fault) :
    r.IsEntry t file w d.fault (d.message w) := by
  by_cases hpath : r.schemaPath = ""
  · -- No schema file is named, and none of the declarations comes from one.
    rw [message_of_line_eq_zero w horigin fun _ _ => .inr hpath]
    exact .alone fun i _ _ => by simp [eq_empty_of_schemaFile? hread hpath]
  obtain ⟨content, hcontent, hfile⟩ := exists_content hread hpath
  by_cases hformat : Format.ofPath r.schemaPath = .text
  · -- The fault is about a declaration of the file, or about a later one, or about none.
    have hlines : SchemaFile.ofLines? content = some file := by
      rw [hformat] at hfile
      exact SchemaFile.orFail_eq_ok_iff.1 hfile
    cases hdecl : d.fault.place.decl? with
    | none =>
      rw [message_of_line_eq_zero w horigin (by simp [hdecl])]
      exact .alone (by simp [hdecl])
    | some i =>
      have hline := SchemaFile.line_of_ofLines? hlines i
      cases hi : file.variants[i]? with
      | none =>
        rw [hi] at hline
        rw [message_of_line_eq_zero w horigin (by simpa [hdecl] using .inl hline)]
        exact .alone (by simpa [hdecl, hformat] using hi)
      | some decl =>
        rw [hi] at hline
        obtain ⟨hlt, -⟩ := List.getElem?_eq_some_iff.1 hi
        rw [message_of_line_pos w horigin hpath hdecl hline.1]
        refine .onLine i content decl _ hdecl hlt hformat hcontent ?_ hline
        rw [allDecls, List.getElem?_append_left hlt, hi]
  · -- A structured file has no lines.
    have hlines := SchemaFile.lines_of_ofContent hformat hfile
    rw [message_of_line_eq_zero w horigin fun i _ => .inl (by simp [SchemaFile.line, hlines])]
    exact .alone fun _ _ htext => absurd htext hformat

end Request

/-- When a run of `generate` or `check` fails because the schema breaks rules, the faults come of
reading the declarations, those of the schema file and then those of the command line, or of
checking the schema that was read, whose variants are spelt by the declarations one by one. Each
fault that is about a declaration is about one of these. The text of the error has one entry for
each fault, in order. The entry is the message of the fault, and before it stand the path of the
schema file and a line exactly when the fault is about a declaration of a schema file of lines; then
the declaration stands on that line. -/
theorem diagnoses_name_lines {t : FileTree} {arguments rest : List String} {c : Command}
    (hc : c ∈ [Command.generate, .check]) (hfind : Command.find arguments = .ok (c, rest))
    {ds : List Diagnosis}
    (h : ((plan arguments).run t).1.complaint? = some (.faulty ds)) :
    ∃ a file, Flag.parse c.flags rest = .ok a ∧
      let r := Request.ofArguments a
      r.schemaFile? t = some file ∧ r.Raises file (ds.map (·.fault)) ∧
        (∀ d ∈ ds, ∀ i, d.fault.place.decl? = some i → i < (r.allDecls file).length) ∧
        ∀ w, ∃ entries, (Complaint.faulty ds).message w = "\n".intercalate entries ∧
          List.Forall₂ (fun d entry => r.IsEntry t file w d.fault entry) ds entries := by
  cases hflags : Flag.parse c.flags rest with
  | error e =>
    unfold plan at h
    simp [hfind, hflags, Plan.fail, Plan.run] at h
  | ok a =>
    -- Help pages and superfluous operands come before the run proper.
    have hblames : ∃ file, (Request.ofArguments a).Blames t file ds := by
      rw [plan_of_find hc hfind hflags] at h
      split_ifs at h
      · simp [Plan.print, Plan.run] at h
      · split at h
        · simp [Plan.fail, Plan.run] at h
        · rcases List.mem_pair.1 hc with rfl | rfl
          · exact Request.blames_of_generatePlan h
          · exact Request.blames_of_checkPlan h
    obtain ⟨file, hread, hraises, horigin⟩ := hblames
    refine ⟨a, file, rfl, hread, hraises, fun d hd i hi => ?_, fun w => ?_⟩
    · exact hraises.decl_lt (List.mem_map_of_mem hd) hi
    · refine ⟨ds.map (·.message w), rfl, ?_⟩
      rw [List.forall₂_map_right_iff, List.forall₂_same]
      exact fun d hd => Request.isEntry_message hread w (horigin d hd)

/-- Field names that are the same once they are in title case, on the third line of a schema file
and in a declaration of the command line. -/
theorem diagnoses_name_lines_exported :
    let t : FileTree := ⟨[(["s.txt"], .file "# fields\n\n  A : T x, T X\r\n")]⟩
    let flags := ["-c", "s.txt", "--export-fields", "-d", "B : T y, T Y"]
    let ds : List Diagnosis := [
      ⟨some ("s.txt", 3), ⟨.duplicateField, .field 0 1, none, "T X",
        "fields \"x\" and \"X\" are both emitted as X"⟩⟩,
      ⟨none, ⟨.duplicateField, .field 1 1, none, "T Y",
        "fields \"y\" and \"Y\" are both emitted as Y"⟩⟩]
    ((plan ("generate" :: flags)).run t).1.complaint? = some (.faulty ds) ∧
      ∃ a file, Flag.parse Command.generate.flags flags = .ok a ∧
        let r := Request.ofArguments a
        r.Raises file (ds.map (·.fault)) ∧
          ∀ w, ∃ entries, (Complaint.faulty ds).message w = "\n".intercalate entries ∧
            List.Forall₂ (fun d entry => r.IsEntry t file w d.fault entry) ds entries := by
  intro t flags ds
  have hfind : Command.find ("generate" :: flags) = .ok (.generate, flags) :=
    find_name (c := .generate) (by decide) flags
  have hfaulty : ((plan ("generate" :: flags)).run t).1.complaint? = some (.faulty ds) := by
    decide +kernel
  obtain ⟨a, file, hflags, -, hraises, -, hentries⟩ :=
    diagnoses_name_lines (by decide) hfind hfaulty
  exact ⟨hfaulty, a, file, hflags, hraises, hentries⟩

end CommandLine

end NodeFamily
