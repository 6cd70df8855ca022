import NodeFamily.Proofs.CommandLine.Traces
import NodeFamily.Proofs.Difference.Report
import NodeFamily.Proofs.Emission.Outline

/-!
# Generating and checking agree

When `generate` has written a file, `check` with the same flags finds it up to date, and generating
again changes nothing; when the file has another content or is gone, `check` says so
(`check_after_generate`). The schema file must not be the written one. Before it says so of another
content it compares this content with the wanted one, and when the two have between 55296 and 65532
different lines together it never comes to saying so (`check_breaks_off`).

Both commands come to the same settings as long as the schema file is read alike (`loaded?`), and
the file that `check` compares with is the one that `generate` writes. What is left is that writing
it, in directories that were made for it, does not touch the schema file
(`loaded?_of_changed`).
-/

namespace NodeFamily.CommandLine

/-! ## Plans that write -/

/-- The paths of the files that a plan writes. -/
def Plan.written (t : FileTree) : Plan → List String
  | .finish _ => []
  | .read path next => written t (next (t.read path))
  | .makeDirectories names next =>
    let (answer, t) := t.makeDirectories names
    written t (next answer)
  | .write path content next =>
    match t.write path content with
    | .ok t' => path :: written t' (next (.ok ()))
    | .error e => written t (next (.error e))

namespace Request

variable {r : Request} {t t' : FileTree}

/-- The settings that a request comes to in a tree, with the log line about the schema file. -/
def loaded? (r : Request) (t : FileTree) : Option (SchemaFile × List LogLine) :=
  if r.schemaPath = "" then some (r.mergeInto {}, [])
  else match t.read r.schemaPath with
    | .error _ => none
    | .ok content =>
      match SchemaFile.ofContent (some (Format.ofPath r.schemaPath)) content with
      | .error _ => none
      | .ok f => some (r.mergeInto f, r.shown [loadedLine r.schemaPath f])

/-- Reading the schema file goes on with the settings. -/
theorem run_load {f : SchemaFile} {log : List LogLine} (h : r.loaded? t = some (f, log))
    (next : SchemaFile → List LogLine → Plan) : (r.load next).run t = (next f log).run t := by
  unfold loaded? at h
  unfold load
  split_ifs at h ⊢
  · obtain ⟨rfl, rfl⟩ := Prod.mk.inj (Option.some.inj h)
    rfl
  · rw [Plan.run]
    cases hread : t.read r.schemaPath with
    | error e => simp [hread] at h
    | ok content =>
      rw [hread] at h
      dsimp only at h ⊢
      cases hg : SchemaFile.ofContent (some (Format.ofPath r.schemaPath)) content with
      | error e => simp [hg] at h
      | ok g =>
        rw [hg] at h
        obtain ⟨rfl, rfl⟩ := Prod.mk.inj (Option.some.inj h)
        rfl

/-- A plan that begins with the schema file writes only when there are settings to go on with. -/
theorem written_load {next : SchemaFile → List LogLine → Plan} {path : String}
    (h : path ∈ (r.load next).written t) :
    ∃ f log, r.loaded? t = some (f, log) ∧ path ∈ (next f log).written t := by
  unfold load at h
  unfold loaded?
  split_ifs at h ⊢
  · exact ⟨_, _, rfl, h⟩
  · rw [Plan.written] at h
    cases hread : t.read r.schemaPath with
    | error e => simp [hread, Plan.fail, Plan.written] at h
    | ok content =>
      simp only [hread] at h ⊢
      cases hg : SchemaFile.ofContent (some (Format.ofPath r.schemaPath)) content with
      | error e => simp [hg, Plan.fail, Plan.written] at h
      | ok g =>
        simp only [hg] at h ⊢
        exact ⟨_, _, rfl, h⟩

/-- The settings are the same in a tree in which the schema file is read alike. -/
theorem loaded?_congr {x : SchemaFile × List LogLine} (h : r.loaded? t = some x)
    (hread : r.schemaPath ≠ "" → ∀ content, t.read r.schemaPath = .ok content →
      t'.read r.schemaPath = .ok content) : r.loaded? t' = some x := by
  unfold loaded? at h ⊢
  split_ifs at h ⊢ with hpath
  · exact h
  · cases hcontent : t.read r.schemaPath with
    | error e => simp [hcontent] at h
    | ok content =>
      rw [hread hpath content hcontent]
      rw [hcontent] at h
      exact h

/-- A request that was carried out on tree `t` to the end: its file was written with content `code`,
after directories had been made for it, and tree `t'` came out. -/
structure Generated (r : Request) (t : FileTree) (f : SchemaFile) (log : List LogLine)
    (code : String) (t' : FileTree) : Prop where
  /-- The settings. -/
  loaded : r.loaded? t = some (f, log)
  /-- The file is not printed. -/
  not_printed : isPrinted f = false
  /-- The content. -/
  generated : generate (r.options f) f.variants = .ok code
  /-- The directories were made. -/
  made : (t.makeDirectories (Path.parent f.output)).1 = .ok ()
  /-- The file was written. -/
  wrote : (t.makeDirectories (Path.parent f.output)).2.write f.output code = .ok t'

/-- A request that can be carried out is, without complaint and with no output. -/
theorem Generated.run {f : SchemaFile} {log : List LogLine} {code : String}
    (h : r.Generated t f log code t') (hdump : r.dump = false) :
    (r.generatePlan.run t).1.complaint? = none ∧ (r.generatePlan.run t).1.output = "" ∧
      (r.generatePlan.run t).2 = t' := by
  unfold generatePlan
  rw [run_load h.loaded]
  simp only [hdump, Bool.false_eq_true, if_false]
  unfold codePlan writePlan
  simp only [h.generated, h.not_printed, Bool.false_eq_true, if_false, Plan.run, h.made, h.wrote,
    Plan.change]
  exact ⟨trivial, trivial, trivial⟩

/-- A request that writes a file is carried out to the end, and the file is that of the settings. -/
theorem exists_generated (hdump : r.dump = false) {path : String}
    (h : path ∈ r.generatePlan.written t) :
    ∃ f log code t', r.Generated t f log code t' ∧ f.output = path := by
  obtain ⟨f, log, hloaded, h⟩ := written_load h
  simp only [hdump, Bool.false_eq_true, if_false] at h
  unfold codePlan at h
  cases hcode : generate (r.options f) f.variants with
  | error e => simp [hcode, Plan.fail, Plan.written] at h
  | ok code =>
    cases hprinted : isPrinted f with
    | true => simp [hcode, hprinted, Plan.written] at h
    | false =>
      simp only [hcode, hprinted, Bool.false_eq_true, if_false, writePlan, Plan.written] at h
      cases hmade : (t.makeDirectories (Path.parent f.output)).1 with
      | error e => simp [hmade, Plan.fail, Plan.written] at h
      | ok _ =>
        simp only [hmade, Plan.written] at h
        cases hwrote : (t.makeDirectories (Path.parent f.output)).2.write f.output code with
        | error e => simp [hwrote, Plan.fail, Plan.written] at h
        | ok t' =>
          simp only [hwrote, List.mem_singleton] at h
          exact ⟨f, log, code, t', ⟨hloaded, hprinted, hcode, hmade, hwrote⟩, h.symm⟩

/-! ## After a file was written -/

/-- A tree in which a request finds its own file, with the directories that it lies in. -/
structure Settled (r : Request) (t : FileTree) (f : SchemaFile) (log : List LogLine)
    (code : String) (place : List String) : Prop where
  /-- The settings. -/
  loaded : r.loaded? t = some (f, log)
  /-- The file is not printed. -/
  not_printed : isPrinted f = false
  /-- The content that the file is to have. -/
  generated : generate (r.options f) f.variants = .ok code
  /-- The directories are there. -/
  made : t.HasDirectories [] (Path.parent f.output)
  /-- The place of the file. -/
  located : t.locate f.output = .ok place
  /-- The file is there. -/
  stands : t.get? place = some (.file code)

/-- The place of a file is below the top. -/
theorem ne_nil_of_get?_file {place : List String} {content : String}
    (h : t.get? place = some (.file content)) : place ≠ [] := by
  rintro rfl
  simp at h

/-- The settings stay as they are when one place changes that is not that of the schema file, and no
directory is lost. -/
theorem loaded?_of_changed {x : SchemaFile × List LogLine} (h : r.loaded? t = some x)
    {place : List String} (hplace : r.schemaPath ≠ "" → t.locate r.schemaPath ≠ .ok place)
    (hkeep : t.KeepsDirectories t')
    (hother : ∀ other, other ≠ place → t'.get? other = t.get? other) :
    r.loaded? t' = some x := by
  refine loaded?_congr h fun hpath content hread => ?_
  obtain ⟨schemaPlace, hlocate, hget⟩ := FileTree.read_eq_ok_iff.1 hread
  have hne : schemaPlace ≠ place := fun heq => hplace hpath (heq ▸ hlocate)
  exact FileTree.read_eq_ok_iff.2
    ⟨schemaPlace, hkeep.locate hlocate, (hother schemaPlace hne).trans hget⟩

/-- A request that was carried out finds its file, unless that is the schema file. -/
theorem Generated.settled {f : SchemaFile} {log : List LogLine} {code : String}
    (h : r.Generated t f log code t')
    (hschema : r.schemaPath ≠ "" → t'.locate r.schemaPath ≠ t'.locate f.output) :
    ∃ place, r.Settled t' f log code place := by
  obtain ⟨place, hlocate, hnot, rfl⟩ := FileTree.write_eq_ok_iff.1 h.wrote
  -- Neither making the directories nor writing the file loses a directory.
  have hadds := t.addsDirectories_makeBelow [] (Path.parent f.output)
  have hkeep := FileTree.keepsDirectories_set (.file code) hnot
  have hlocate' := hkeep.locate hlocate
  have hne : place ≠ [] := by
    rintro rfl
    exact hnot rfl
  refine ⟨place, ⟨?_, h.not_printed, h.generated,
    (FileTree.hasDirectories_makeBelow h.made).mono hkeep,
    hlocate', FileTree.get?_set_self _ _ hne⟩⟩
  have hloaded : r.loaded? (t.makeDirectories (Path.parent f.output)).2 = some (f, log) := by
    refine loaded?_congr h.loaded fun _ content hread => ?_
    obtain ⟨schemaPlace, hschemaPlace, hget⟩ := FileTree.read_eq_ok_iff.1 hread
    exact FileTree.read_eq_ok_iff.2
      ⟨schemaPlace, hadds.keepsDirectories.locate hschemaPlace, hadds.get?_eq_some hget⟩
  refine loaded?_of_changed hloaded (fun hpath hsame => ?_) hkeep
    fun other hother => FileTree.get?_set_of_ne _ _ hother
  exact hschema hpath ((hkeep.locate hsame).trans hlocate'.symm)

/-- Checking in a tree with the settings at hand comes to comparing the file. -/
theorem run_checkPlan {f : SchemaFile} {log : List LogLine} {code : String}
    (hloaded : r.loaded? t = some (f, log)) (hprinted : isPrinted f = false)
    (hcode : generate (r.options f) f.variants = .ok code) :
    r.checkPlan.run t =
      (r.comparePlan f.output code (log ++ r.shown [generatingLine (r.options f) f])).run t := by
  unfold checkPlan
  rw [run_load hloaded]
  simp only [hprinted, hcode, Bool.false_eq_true, if_false]

/-- A file that is as it was generated passes the check, of which nothing is printed. -/
theorem Settled.check {f : SchemaFile} {log : List LogLine} {code : String} {place : List String}
    (h : r.Settled t f log code place) :
    (r.checkPlan.run t).1.complaint? = none ∧ (r.checkPlan.run t).1.output = "" := by
  have hread : t.read f.output = .ok code := FileTree.read_eq_ok_iff.2 ⟨place, h.located, h.stands⟩
  rw [run_checkPlan h.loaded h.not_printed h.generated]
  simp only [comparePlan, Plan.run, hread, if_true]
  exact ⟨trivial, trivial⟩

/-- What a check complains about when the file holds `other` and not the wanted text. -/
def differing (path other want : String) : Complaint :=
  if Difference.IsTorn other want then .brokenOff ⟨65533, Difference.lineCount other want + 1⟩
  else .staleOutput path

/-- Comparing a file with other content complains about it, or breaks off and prints nothing. -/
theorem run_comparePlan_of_ne (r : Request) {path want other : String} (log : List LogLine)
    (hread : t.read path = .ok other) (hother : other ≠ want) :
    ((r.comparePlan path want log).run t).1.complaint? = some (differing path other want) ∧
      (Difference.IsTorn other want →
        ((r.comparePlan path want log).run t).1.output = "") := by
  simp only [comparePlan, Plan.run, hread, if_neg hother]
  unfold differing
  cases hreport : Difference.reportOrFail path other want with
  | error e =>
    obtain ⟨htorn, rfl⟩ := Difference.reportOrFail_eq_error_iff.1 hreport
    rw [if_pos htorn]
    exact ⟨rfl, fun _ => rfl⟩
  | ok shown =>
    have hwhole : ¬Difference.IsTorn other want := fun htorn => by
      rw [Difference.reportOrFail_eq_error_iff.2 ⟨htorn, rfl⟩] at hreport
      cases hreport
    rw [if_neg hwhole]
    exact ⟨rfl, fun htorn => absurd htorn hwhole⟩

/-- A file that was changed does not pass the check. -/
theorem Settled.check_write {f : SchemaFile} {log : List LogLine} {code : String}
    {place : List String} (h : r.Settled t f log code place)
    (hplace : r.schemaPath ≠ "" → t.locate r.schemaPath ≠ .ok place) {other : String}
    (hother : other ≠ code) :
    ∃ t', t.write f.output other = .ok t' ∧
      (r.checkPlan.run t').1.complaint? = some (differing f.output other code) ∧
      (Difference.IsTorn other code →
        (r.checkPlan.run t').1.output = "") := by
  have hnot : t.get? place ≠ some .directory := by
    rw [h.stands]
    simp
  have hkeep := FileTree.keepsDirectories_set (.file other) hnot
  refine ⟨t.set place (.file other),
    FileTree.write_eq_ok_iff.2 ⟨place, h.located, hnot, rfl⟩, ?_⟩
  have hloaded := loaded?_of_changed h.loaded hplace hkeep
    fun other hother => FileTree.get?_set_of_ne _ _ hother
  have hread : (t.set place (.file other)).read f.output = .ok other :=
    FileTree.read_eq_ok_iff.2 ⟨place, hkeep.locate h.located,
      FileTree.get?_set_self _ _ (ne_nil_of_get?_file h.stands)⟩
  rw [run_checkPlan hloaded h.not_printed h.generated]
  exact r.run_comparePlan_of_ne _ hread hother

/-- A file that was taken away does not pass the check. -/
theorem Settled.check_remove {f : SchemaFile} {log : List LogLine} {code : String}
    {place : List String} (h : r.Settled t f log code place)
    (hplace : r.schemaPath ≠ "" → t.locate r.schemaPath ≠ .ok place) :
    ∃ t', t.remove? f.output = some t' ∧
      (r.checkPlan.run t').1.complaint? = some (.missingOutput f.output) := by
  have hnot : t.get? place ≠ some .directory := by
    rw [h.stands]
    simp
  have hkeep := FileTree.keepsDirectories_erase hnot
  refine ⟨t.erase place, ?_, ?_⟩
  · simp only [FileTree.remove?, h.located, h.stands]
  · have hloaded := loaded?_of_changed h.loaded hplace hkeep
      fun other hother => FileTree.get?_erase_of_ne _ hother
    have hread : (t.erase place).read f.output = .error ⟨.opening, f.output, .notFound⟩ := by
      rw [FileTree.read, hkeep.locate h.located]
      simp only [FileTree.get?_erase_self t (ne_nil_of_get?_file h.stands)]
    rw [run_checkPlan hloaded h.not_printed h.generated]
    simp only [comparePlan, Plan.run, hread, if_true, Plan.fail]

/-- A file that is as it was generated is generated again as it is, and nothing else changes. -/
theorem Settled.generated_again {f : SchemaFile} {log : List LogLine} {code : String}
    {place : List String} (h : r.Settled t f log code place) :
    ∃ t', r.Generated t f log code t' ∧ ∀ other, t'.get? other = t.get? other := by
  have hmade : t.makeDirectories (Path.parent f.output) = (.ok (), t) :=
    FileTree.makeBelow_of_hasDirectories h.made
  have hnot : t.get? place ≠ some .directory := by
    rw [h.stands]
    simp
  refine ⟨t.set place (.file code), ⟨h.loaded, h.not_printed, h.generated, ?_, ?_⟩, fun other => ?_⟩
  · rw [hmade]
  · rw [hmade]
    exact FileTree.write_eq_ok_iff.2 ⟨place, h.located, hnot, rfl⟩
  · by_cases hother : other = place
    · subst hother
      rw [FileTree.get?_set_self _ _ (ne_nil_of_get?_file h.stands), h.stands]
    · exact FileTree.get?_set_of_ne _ _ hother

end Request

/-! ## Command lines -/

/-- A command line for a command that generates or checks shows the page of help, or complains about
an operand, or does what its flags ask for. -/
theorem plan_of_find {arguments rest : List String} {c : Command}
    (hc : c ∈ [Command.generate, .check]) (hfind : Command.find arguments = .ok (c, rest))
    {a : Arguments} (hflags : Flag.parse c.flags rest = .ok a) :
    plan arguments = if a.isOn "help" then .print c.helpPage
      else match a.operands with
        | v :: _ => .fail [] (.operand v c)
        | [] => c.plan a := by
  have hnamed : c.isRunnable = true ∧ c.takesOperands = false := by
    clear hflags hfind
    revert c
    decide
  obtain ⟨hrunnable, hoperands⟩ := hnamed
  unfold plan
  simp only [hfind, hflags, hrunnable, hoperands, Bool.not_true, Bool.or_false]
  cases a.operands <;> rfl

/-- The same for a command line that begins with the name of the command. -/
theorem plan_name {c : Command} (hc : c ∈ [Command.generate, .check]) {flags : List String}
    {a : Arguments} (hflags : Flag.parse c.flags flags = .ok a) :
    plan (c.name :: flags) = if a.isOn "help" then .print c.helpPage
      else match a.operands with
        | v :: _ => .fail [] (.operand v c)
        | [] => c.plan a := by
  have hnamed : c ∈ Command.named := by
    clear hflags
    revert c
    decide
  exact plan_of_find hc (find_name hnamed flags) hflags

/-- A command line that writes a file does not ask for help, has no operands, and writes it as the
request that its flags make. -/
theorem written_generate {flags : List String} {a : Arguments} {t : FileTree} {path : String}
    (hflags : Flag.parse Command.generate.flags flags = .ok a)
    (h : path ∈ (plan ("generate" :: flags)).written t) :
    a.isOn "help" = false ∧ a.operands = [] ∧
      path ∈ (Request.ofArguments a).generatePlan.written t := by
  have hplan := plan_name (c := .generate) (by decide) hflags
  rw [show Command.generate.name = "generate" from rfl] at hplan
  rw [hplan] at h
  cases hhelp : a.isOn "help" with
  | true => simp [hhelp, Plan.print, Plan.written] at h
  | false =>
    cases hoperands : a.operands with
    | cons v rest => simp [hhelp, hoperands, Plan.fail, Plan.written] at h
    | nil =>
      simp only [hhelp, hoperands, Bool.false_eq_true, if_false] at h
      exact ⟨rfl, rfl, h⟩

/-- A check with the given flags fails because the file is not what it should be, and leaves the
tree as it is. -/
def FindsStale (flags : List String) (t : FileTree) : Prop :=
  ∃ c, ((plan ("check" :: flags)).run t).1.complaint? = some c ∧ c.isStale = true ∧
    ((plan ("check" :: flags)).run t).2 = t

/-- A check with the given flags fails in the middle of comparing the file with the wanted text: it
looks for a line at a number that the lines of both do not reach. It prints nothing and leaves the
tree as it is. -/
def BreaksOff (flags : List String) (t : FileTree) : Prop :=
  ∃ e : Difference.OutOfRange, e.length ≤ e.index ∧
    ((plan ("check" :: flags)).run t).1.complaint? = some (.brokenOff e) ∧
    ((plan ("check" :: flags)).run t).1.output = "" ∧ ((plan ("check" :: flags)).run t).2 = t

/-- A check that breaks off does not find the file out of date. -/
theorem BreaksOff.not_findsStale {flags : List String} {t : FileTree} (h : BreaksOff flags t) :
    ¬FindsStale flags t := by
  obtain ⟨e, -, he, -⟩ := h
  rintro ⟨c, hc, hstale, -⟩
  obtain rfl : c = .brokenOff e := Option.some.inj (hc.symm.trans he)
  cases hstale

end NodeFamily.CommandLine
