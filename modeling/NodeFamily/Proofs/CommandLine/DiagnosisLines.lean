import NodeFamily.Proofs.CommandLine.Diagnoses
import NodeFamily.Proofs.FaultMessages

/-!
# One line for each fault

The text of the error with which `generate` or `check` fails has one entry for each fault. Since no
message about a fault holds a line feed, whatever the declarations hold, the entries are the lines
of this text: nothing in a declaration can end an entry or begin another. Only the path of the
schema file is put before an entry as it is. `messages_unbroken` says this together with what it
rests on, that the messages hold no control character at all.
-/

namespace NodeFamily

namespace CommandLine

/-- A diagnosis is one line when the path before it is. -/
theorem Diagnosis.not_mem_message {w : Wording} {d : Diagnosis}
    (hmessage : Text.IsUnbroken (d.fault.message w))
    (hpath : ∀ p ∈ d.origin?, '\n' ∉ p.1.toList) : '\n' ∉ (d.message w).toList := by
  unfold Diagnosis.message
  split
  · next file line horigin =>
    have hfile : '\n' ∉ file.toList := hpath (file, line) horigin
    have hcolon : '\n' ∉ ":".toList ∧ '\n' ∉ ": ".toList := by decide
    have hline := (Text.isUnbroken_toString line).not_mem
    simp only [String.toList_append, List.mem_append, not_or]
    exact ⟨⟨⟨⟨hfile, hcolon.1⟩, hline⟩, hcolon.2⟩, hmessage.not_mem⟩
  · exact hmessage.not_mem

namespace Request

/-- The only path before a diagnosis is that of the schema file. -/
theorem eq_schemaPath_of_origin? {r : Request} {f : SchemaFile} {fault : Fault}
    {p : String × Nat} (h : r.origin? f fault = some p) : p.1 = r.schemaPath := by
  unfold origin? at h
  split at h
  · simp at h
  · dsimp only at h
    split_ifs at h
    rw [← Option.some.inj h]

/-- The lines of the complaint of a run that is refused are its entries. -/
theorem IsRefused.linesBetween_message {r : Request} {t : FileTree} {ds : List Diagnosis}
    (h : r.IsRefused t ds) (hpath : '\n' ∉ r.schemaPath.toList) (l : Language) :
    Text.linesBetween ((Complaint.faulty ds).message (.dictionary l)) =
      ds.map (·.message (.dictionary l)) := by
  obtain ⟨file, faults, -, hgenerate, hdiagnose⟩ := h
  obtain ⟨hne, hunbroken⟩ := isUnbroken_of_generate hgenerate
  obtain rfl : faults.map (fun fault => ⟨r.origin? (r.mergeInto file) fault, fault⟩) = ds := by
    simpa [diagnose] using hdiagnose
  refine Text.linesBetween_intercalate (by simpa using hne) ?_
  rw [List.forall_mem_map, List.forall_mem_map]
  intro fault hfault
  refine Diagnosis.not_mem_message ((hunbroken fault hfault).message l) fun p hp => ?_
  rwa [eq_schemaPath_of_origin? hp]

end Request

/-- A command line that fails because of faults is refused by the request that its flags make. -/
theorem isRefused_of_plan {t : FileTree} {arguments rest : List String} {c : Command}
    (hc : c ∈ [Command.generate, .check]) (hfind : Command.find arguments = .ok (c, rest))
    {a : Arguments} (hflags : Flag.parse c.flags rest = .ok a) {ds : List Diagnosis}
    (h : ((plan arguments).run t).1.complaint? = some (.faulty ds)) :
    (Request.ofArguments a).IsRefused t ds := by
  rw [plan_of_find hc hfind hflags] at h
  split_ifs at h
  · simp [Plan.print, Plan.run] at h
  · split at h
    · simp [Plan.fail, Plan.run] at h
    · rcases List.mem_pair.1 hc with rfl | rfl
      · exact Request.isRefused_of_generatePlan h
      · exact Request.isRefused_of_checkPlan h

end CommandLine

open CommandLine

/-- In either language the message about a fault holds no control character, be it a fault of
reading declarations or one of a schema that nobody has read, and whatever these hold. So when a run
of `generate` or `check` fails because of faults, and the path of the schema file holds no line
feed, the text of the error has as many lines as there are faults, and each line is the entry about
one of them. -/
theorem messages_unbroken (l : Language) :
    (∀ failFast decls faults, parse failFast decls = .error faults →
      ∀ f ∈ faults, Text.IsUnbroken (f.message (.dictionary l))) ∧
    (∀ o schema? faults, generateSchema o schema? = .error (.faulty faults) →
      ∀ f ∈ faults, Text.IsUnbroken (f.message (.dictionary l))) ∧
    ∀ t arguments rest c a ds, c ∈ [Command.generate, .check] →
      Command.find arguments = .ok (c, rest) → Flag.parse c.flags rest = .ok a →
      '\n' ∉ (a.value "config").toList →
      ((plan arguments).run t).1.complaint? = some (.faulty ds) →
      let r := Request.ofArguments a
      let lines := Text.linesBetween ((Complaint.faulty ds).message (.dictionary l))
      ∃ file faults, r.schemaFile? t = some file ∧
        generate (r.options (r.mergeInto file)) (r.allDecls file) = .error (.faulty faults) ∧
        ds.map (·.fault) = faults ∧ lines = ds.map (·.message (.dictionary l)) ∧
        lines.length = faults.length := by
  refine ⟨fun failFast decls faults h f hf => (isUnbroken_of_parse h hf).message l,
    fun o schema? faults h f hf => (isUnbroken_of_generateSchema h hf).message l, ?_⟩
  intro t arguments rest c a ds hc hfind hflags hpath h r lines
  have hrefused : r.IsRefused t ds := isRefused_of_plan hc hfind hflags h
  have hlines : lines = ds.map (·.message (.dictionary l)) :=
    hrefused.linesBetween_message hpath l
  obtain ⟨file, faults, hread, hgenerate, hdiagnose⟩ := hrefused
  have hfaults : ds.map (·.fault) = faults := by
    obtain rfl : faults.map (fun fault => ⟨r.origin? (r.mergeInto file) fault, fault⟩) = ds := by
      simpa [Request.diagnose] using hdiagnose
    simp [Function.comp_def]
  refine ⟨file, faults, hread, hgenerate, hfaults, hlines, ?_⟩
  rw [hlines, ← hfaults, List.length_map, List.length_map]

/-- A declaration with an escape sequence, a schema with a mark for deletion and with two fields
that share an identifier, and a run on two declarations of which each would go over two lines. -/
theorem messages_unbroken_escape :
    let decls := ["A\n : T x, \r\n\x1b[2J"]
    let faults : List Fault := [⟨.malformedField, .field 0 1, some 1, "\x1b[2J",
      "expected \"Type name\", got \"\\x1b[2J\""⟩]
    let o : Options := { exportFields := true }
    let s : Schema := ⟨[⟨"B", [⟨"T", "x", .leaf⟩, ⟨"T\x7f", "y", .leaf⟩, ⟨"T", "X", .leaf⟩]⟩]⟩
    let found : List Fault := [
      ⟨.invalidName, .field 0 1, none, "T\x7f y", "invalid type name \"T\\x7f\""⟩,
      ⟨.duplicateField, .field 0 2, none, "T X",
        "fields \"x\" and \"X\" are both emitted as X"⟩]
    let t : FileTree := ⟨[(["s.txt"], .file "A : T\x0by\n")]⟩
    let flags := ["-c", "s.txt", "-o", "a.go", "-d", "C\nD"]
    let ds : List Diagnosis := [
      ⟨some ("s.txt", 1), ⟨.malformedField, .field 0 0, some 5, "T\x0by",
        "expected \"Type name\", got \"T\\vy\""⟩⟩,
      ⟨none, ⟨.missingSeparator, .declaration 1, none, "C\nD",
        "expected \"Name : Type field, ...\" in \"C\\nD\""⟩⟩]
    (parse false decls = .error faults ∧
      ∀ f ∈ faults, Text.IsUnbroken (f.message (.dictionary .japanese))) ∧
    (generateSchema o (some s) = .error (.faulty found) ∧
      ∀ f ∈ found, Text.IsUnbroken (f.message (.dictionary .japanese))) ∧
    ((plan ("check" :: flags)).run t).1.complaint? = some (.faulty ds) ∧
      (Text.linesBetween ((Complaint.faulty ds).message (.dictionary .japanese))).length = 2 := by
  intro decls faults o s found t flags ds
  let a : Arguments := ⟨[⟨"config", "s.txt"⟩, ⟨"output", "a.go"⟩, ⟨"decl", "C\nD"⟩], []⟩
  have hparse : parse false decls = .error faults := by decide +kernel
  have hschema : generateSchema o (some s) = .error (.faulty found) := by decide +kernel
  have hfind : Command.find ("check" :: flags) = .ok (.check, flags) :=
    find_name (c := .check) (by decide) flags
  have hflags : Flag.parse Command.check.flags flags = .ok a := by decide +kernel
  have hplan : plan ("check" :: flags) = (Request.ofArguments a).checkPlan :=
    plan_of_find (by decide) hfind hflags
  let file : SchemaFile := (Request.ofArguments a).mergeInto
    { variants := ["A : T\x0by"], lines := [1] }
  have hloaded : (Request.ofArguments a).loaded? t = some (file, []) := by decide +kernel
  have hparse' : parse false file.variants = .error (ds.map (·.fault)) := by
    rw [parse_eq]
    decide +kernel
  have hgenerate : generate ((Request.ofArguments a).options file) file.variants =
      .error (.faulty (ds.map (·.fault))) := by
    unfold generate
    rw [show ((Request.ofArguments a).options file).failFast = false from rfl, hparse']
  have hfaulty : ((plan ("check" :: flags)).run t).1.complaint? = some (.faulty ds) := by
    rw [hplan, Request.checkPlan, Request.run_load hloaded, if_neg (by decide)]
    dsimp only
    rw [hgenerate]
    rfl
  obtain ⟨hdecls, hschemas, hruns⟩ := messages_unbroken .japanese
  obtain ⟨_, _, -, -, hfaults, -, hlength⟩ :=
    hruns t ("check" :: flags) flags .check a ds (by decide) hfind hflags (by decide) hfaulty
  refine ⟨⟨hparse, hdecls false decls faults hparse⟩,
    ⟨hschema, hschemas o (some s) found hschema⟩, hfaulty, ?_⟩
  rw [hlength, ← hfaults]
  rfl

end NodeFamily
