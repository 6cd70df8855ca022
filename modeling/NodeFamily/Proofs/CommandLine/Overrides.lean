import Mathlib.Data.List.Basic
import NodeFamily.Proofs.CommandLine.Settings

/-!
# Flags over the schema file

The settings of a run are those of the schema file with what the flags say on top of them. Further
declarations and import paths come after those of the file. A package, an output or the choice of
title case that a flag gives stands in place of the one in the file, unless the flag takes it back:
an empty text or a false value leaves the file as it is (`run_settings`). What a flag says is its
last value, and `Flag.parse` lets no value through that its flag does not take
(`Flag.isOf_of_parse`).
-/

namespace NodeFamily.CommandLine

/-! ## Values that flags take -/

/-- A value that one of the flags takes. -/
def Assignment.IsOf (flags : List Flag) (x : Assignment) : Prop :=
  ∃ f ∈ flags, f.assign x.value = .ok x

namespace Flag

variable {flags : List Flag}

/-- A flag takes the value that it was assigned. -/
theorem assign_value_eq_ok {f : Flag} {value : String} {x : Assignment}
    (h : f.assign value = .ok x) : f.assign x.value = .ok x := by
  have hvalue : x.value = value := by
    unfold assign at h
    split_ifs at h
    exact Except.ok.inj h ▸ rfl
  rwa [hvalue]

/-- A single assignment to a flag of a list is one that the list takes. -/
theorem isOf_of_map_assign {f : Flag} (hf : f ∈ flags) {value : String} {used : Bool}
    {r : List Assignment × Bool} (h : ((f.assign value).map fun a => ([a], used)) = .ok r) :
    ∀ x ∈ r.1, x.IsOf flags := by
  obtain ⟨x, hx, rfl⟩ := exists_of_map_assign h
  intro y hy
  obtain rfl := List.mem_singleton.1 hy
  exact ⟨f, hf, assign_value_eq_ok hx⟩

/-- Letters are read as values that the flags take. -/
theorem isOf_of_parseLetters {next? : Option String} {letters : List Char}
    {r : List Assignment × Bool} (h : parseLetters flags next? letters = .ok r) :
    ∀ x ∈ r.1, x.IsOf flags := by
  induction letters generalizing r with
  | nil =>
    obtain rfl := Except.ok.inj h
    simp
  | cons c more ih =>
    unfold parseLetters at h
    by_cases hmark : testMark.isPrefixOf (c :: more)
    · rw [if_pos hmark] at h
      obtain rfl := Except.ok.inj h
      simp
    · rw [if_neg hmark] at h
      cases hf : lettered? flags c with
      | none => simp [hf] at h
      | some f =>
        have hmem : f ∈ flags := List.mem_of_find?_eq_some hf
        simp only [hf] at h
        -- A value in the same argument, a switch before more letters, or a value of its own.
        split_ifs at h
        · exact isOf_of_map_assign hmem h
        · obtain ⟨x, hx, h⟩ := bind_eq_ok_iff.1 h
          obtain ⟨r', hr', h⟩ := bind_eq_ok_iff.1 h
          obtain rfl := Except.ok.inj h
          have hfirst : x.IsOf flags := ⟨f, hmem, assign_value_eq_ok hx⟩
          exact List.forall_mem_cons.2 ⟨hfirst, ih hr'⟩
        · exact isOf_of_map_assign hmem h
        · cases next? with
          | some value => exact isOf_of_map_assign hmem h
          | none => simp at h

/-- A name is read as a value that one of the flags takes. -/
theorem isOf_of_parseName {next? : Option String} {argument : String}
    {r : List Assignment × Bool} (h : parseName flags next? argument = .ok r) :
    ∀ x ∈ r.1, x.IsOf flags := by
  unfold parseName at h
  dsimp only at h
  generalize (argument.toList.drop 2).takeWhile (· ≠ '=') = name at h
  by_cases hform : ((argument.toList.drop 2).head? = some '-' ||
      (argument.toList.drop 2).head? = some '=') = true
  · rw [if_pos hform] at h
    exact absurd h (by simp)
  · rw [if_neg hform] at h
    cases hf : named? flags (String.ofList name) with
    | none => simp [hf] at h
    | some f =>
      have hmem : f ∈ flags := List.mem_of_find?_eq_some hf
      simp only [hf] at h
      split_ifs at h
      · exact isOf_of_map_assign hmem h
      · exact isOf_of_map_assign hmem h
      · cases next? with
        | some value => exact isOf_of_map_assign hmem h
        | none => simp at h

/-- Arguments are read as values that the flags take. -/
theorem isOf_of_parse {arguments : List String} {a : Arguments}
    (h : parse flags arguments = .ok a) : ∀ x ∈ a.assignments, x.IsOf flags := by
  induction arguments using parse.induct flags generalizing a with
  | case1 =>
    rw [parse] at h
    obtain rfl := Except.ok.inj h
    simp
  | case2 rest =>
    rw [parse, if_pos rfl] at h
    obtain rfl := Except.ok.inj h
    simp
  | case3 argument rest hlone hoperand ih =>
    rw [parse, if_neg hlone, if_pos hoperand] at h
    cases hrest : parse flags rest with
    | error e => simp [hrest, Except.map] at h
    | ok a' =>
      rw [hrest] at h
      obtain rfl := Except.ok.inj h
      exact ih (a := a') hrest
  | case4 argument rest hlone hoperand hname ih =>
    rw [parse, if_neg hlone, if_neg hoperand, if_pos hname] at h
    obtain ⟨r, hr, h⟩ := bind_eq_ok_iff.1 h
    obtain ⟨a', ha', h⟩ := bind_eq_ok_iff.1 h
    obtain rfl := Except.ok.inj h
    exact List.forall_mem_append.2 ⟨isOf_of_parseName hr, ih r.2 ha'⟩
  | case5 argument rest hlone hoperand hletters ih =>
    rw [parse, if_neg hlone, if_neg hoperand, if_neg hletters] at h
    obtain ⟨r, hr, h⟩ := bind_eq_ok_iff.1 h
    obtain ⟨a', ha', h⟩ := bind_eq_ok_iff.1 h
    obtain rfl := Except.ok.inj h
    exact List.forall_mem_append.2 ⟨isOf_of_parseLetters hr, ih r.2 ha'⟩

end Flag

namespace Arguments

variable {a : Arguments} {name : String}

/-- What a flag is given: its last value, if there is one. -/
def given? (a : Arguments) (name : String) : Option String := (a.values name).getLast?

/-- The value of a flag is what it is given, or the empty text. -/
theorem value_eq_getD (a : Arguments) (name : String) : a.value name = (a.given? name).getD "" :=
  List.getLastD_eq_getLast? ..

/-- What a flag is given is among the assignments. -/
theorem mem_assignments_of_given? {v : String} (h : a.given? name = some v) :
    ⟨name, v⟩ ∈ a.assignments := by
  obtain ⟨x, hx, rfl⟩ := List.mem_map.1 (List.mem_of_getLast? h)
  obtain ⟨hx, hname⟩ := List.mem_filter.1 hx
  rwa [← of_decide_eq_true hname]

end Arguments

/-- The flag about title case is a switch. -/
theorem kind_of_name_eq_exportFields {c : Command} (hc : c ∈ [Command.generate, .check]) {f : Flag}
    (hf : f ∈ c.flags) (hname : f.name = "export-fields") : f.kind = .switch := by
  have hall : ∀ c ∈ [Command.generate, .check], ∀ f ∈ c.flags,
      f.name = "export-fields" → f.kind = .switch := by decide +kernel
  exact hall c hc f hf hname

/-- What the flag about title case is given is a truth value. -/
theorem isSome_boolean?_of_given? {c : Command} (hc : c ∈ [Command.generate, .check])
    {rest : List String} {a : Arguments} (hflags : Flag.parse c.flags rest = .ok a) {v : String}
    (hv : a.given? "export-fields" = some v) : (boolean? v).isSome := by
  obtain ⟨f, hf, hassign⟩ := Flag.isOf_of_parse hflags _ (Arguments.mem_assignments_of_given? hv)
  have hswitch := kind_of_name_eq_exportFields hc hf (Flag.name_of_assign hassign).symm
  unfold Flag.assign at hassign
  cases hv : boolean? v with
  | some b => rfl
  | none => simp [hswitch, hv] at hassign

/-! ## Settings -/

/-- The settings of a schema file as arguments override them: what a flag is given counts, whatever
it is. -/
def Arguments.overrule (a : Arguments) (f : SchemaFile) : SchemaFile :=
  { f with
    variants := f.variants ++ a.values "decl"
    imports := f.imports ++ a.values "import"
    output := (a.given? "output").getD f.output
    package := (a.given? "package").getD f.package
    exportFields := ((a.given? "export-fields").bind boolean?).getD f.exportFields }

/-- A flag takes back what a schema file says: it is given an empty text where the file names a
package or an output other than the one that goes without saying, or a false value where the file
asks for title case. -/
def Arguments.TakesBack (a : Arguments) (f : SchemaFile) : Prop :=
  (a.given? "package" = some "" ∧ f.package ≠ "" ∧ f.package ≠ defaultPackage) ∨
    (a.given? "output" = some "" ∧ f.output ≠ "" ∧ f.output ≠ "-") ∨
    ((a.given? "export-fields").bind boolean? = some false ∧ f.exportFields = true)

/-! ## Runs -/

namespace Request

/-- A text, or the one that stands for an empty one. -/
def filled (fixed value : String) : String := if value = "" then fixed else value

/-- The settings as they take effect, with the package and the output that go without saying in
place of empty texts. -/
def effective (f : SchemaFile) : SchemaFile :=
  { f with
    package := filled defaultPackage f.package
    output := filled "-" f.output }

/-- What a request asks for beside the settings. -/
def bare (r : Request) : Request :=
  { schemaPath := r.schemaPath, failFast := r.failFast, dump := r.dump, verbose := r.verbose }

/-- What `generate` and `check` do once the settings are there. -/
def onward (r : Request) (c : Command) (f : SchemaFile) (log : List LogLine) : Plan :=
  if c = .check then
    if isPrinted f then .fail log .noOutput
    else
      let o := r.options f
      let log := log ++ r.shown [generatingLine o f]
      match NodeFamily.generate o f.variants with
      | .error failure => .fail log (r.complain f failure)
      | .ok want => r.comparePlan f.output want log
  else if r.dump then r.dumpPlan f log else r.codePlan f log

/-- Nothing but the settings depends on the flags that override them. -/
theorem onward_bare (r : Request) : r.bare.onward = r.onward := rfl

/-- Both commands begin with the settings and go on from there. -/
theorem plan_eq_load {c : Command} (hc : c ∈ [Command.generate, .check]) (a : Arguments) :
    c.plan a = (ofArguments a).load ((ofArguments a).onward c) := by
  rcases List.mem_pair.1 hc with rfl | rfl <;> rfl

/-- A given text in place of another, unless it is empty. -/
theorem ite_getD_eq (given? : Option String) (kept : String) :
    (if given?.getD "" = "" then kept else given?.getD "") =
      if given? = some "" then kept else given?.getD kept := by
  cases given? <;> simp

/-- A given text takes effect in place of another, unless it is empty and the other one is not what
an empty text stands for. -/
theorem filled_ite_eq_iff (fixed : String) (given? : Option String) (kept : String) :
    filled fixed (if given? = some "" then kept else given?.getD kept) =
        filled fixed (given?.getD kept) ↔
      ¬(given? = some "" ∧ kept ≠ "" ∧ kept ≠ fixed) := by
  by_cases hgiven : given? = some ""
  · subst hgiven
    by_cases hkept : kept = "" <;> simp [filled, hkept]
  · simp [hgiven]

/-- The package of merged settings. -/
theorem package_mergeInto (a : Arguments) (f : SchemaFile) :
    ((ofArguments a).mergeInto f).package =
      if a.given? "package" = some "" then f.package else (a.given? "package").getD f.package := by
  rw [← ite_getD_eq, ← a.value_eq_getD]
  rfl

/-- The output of merged settings. -/
theorem output_mergeInto (a : Arguments) (f : SchemaFile) :
    ((ofArguments a).mergeInto f).output =
      if a.given? "output" = some "" then f.output else (a.given? "output").getD f.output := by
  rw [← ite_getD_eq, ← a.value_eq_getD]
  rfl

/-- The choice of title case of merged settings, when what the flag is given is a truth value. -/
theorem exportFields_mergeInto {a : Arguments} (f : SchemaFile)
    (h : ∀ v, a.given? "export-fields" = some v → (boolean? v).isSome) :
    ((ofArguments a).mergeInto f).exportFields =
      if (a.given? "export-fields").bind boolean? = some false then f.exportFields
      else ((a.given? "export-fields").bind boolean?).getD f.exportFields := by
  show (f.exportFields || (boolean? (a.value "export-fields") == some true)) = _
  rw [a.value_eq_getD]
  cases hv : a.given? "export-fields" with
  | none => simp [show boolean? "" = none by decide]
  | some v =>
    obtain ⟨b, hb⟩ := Option.isSome_iff_exists.1 (h v hv)
    cases b <;> simp [hb]

/-- The merged settings take effect as the arguments override them, unless a flag takes back what
the schema file says. -/
theorem effective_mergeInto_eq_iff {a : Arguments} (f : SchemaFile)
    (h : ∀ v, a.given? "export-fields" = some v → (boolean? v).isSome) :
    effective ((ofArguments a).mergeInto f) = effective (a.overrule f) ↔ ¬a.TakesBack f := by
  have hpackage := filled_ite_eq_iff defaultPackage (a.given? "package") f.package
  have houtput := filled_ite_eq_iff "-" (a.given? "output") f.output
  rw [← package_mergeInto] at hpackage
  rw [← output_mergeInto] at houtput
  have hexport : ((ofArguments a).mergeInto f).exportFields = (a.overrule f).exportFields ↔
      ¬((a.given? "export-fields").bind boolean? = some false ∧ f.exportFields = true) := by
    rw [exportFields_mergeInto f h, Arguments.overrule]
    by_cases hgiven : (a.given? "export-fields").bind boolean? = some false <;> simp [hgiven]
  -- The settings differ in nothing else.
  rw [Arguments.TakesBack, not_or, not_or, ← hpackage, ← houtput, ← hexport, effective, effective,
    SchemaFile.mk.injEq]
  constructor
  · rintro ⟨hpackage, houtput, -, hexport, -⟩
    exact ⟨hpackage, houtput, hexport⟩
  · rintro ⟨hpackage, houtput, hexport⟩
    exact ⟨hpackage, houtput, rfl, hexport, rfl, rfl, rfl⟩

/-- When the schema file is read, the run has settings to go on with. -/
theorem loaded?_of_schemaFile? {r : Request} {t : FileTree} {file : SchemaFile}
    (h : r.schemaFile? t = some file) :
    r.loaded? t = some (r.mergeInto file, r.loadedLog file) := by
  unfold schemaFile? at h
  unfold loaded? loadedLog
  split_ifs at h ⊢
  · rw [← Option.some.inj h]
  · cases hread : t.read r.schemaPath with
    | error e => simp [hread] at h
    | ok content =>
      cases hfile : SchemaFile.ofContent (some (Format.ofPath r.schemaPath)) content with
      | error e => simp [hread, hfile, Except.toOption] at h
      | ok f =>
        simp only [hread, hfile, Except.toOption, Option.some.injEq] at h ⊢
        rw [h]

end Request

/-- What the flags of a run of `generate` or `check` do to the settings of its schema file, which
are empty when no file is named. The run goes on with settings `g`, and the flags matter to it in no
other way. The declarations and import paths of `g` are those of the file and then those of the
flags, in order. A package, an output or a choice of title case that is given, by the last value of
its flag, stands in place of the one in the file, unless the value is empty or false; then the file
keeps its own. So `g` takes effect as if every value that is given counted exactly when no flag
takes back what the file says. -/
theorem run_settings {t : FileTree} {arguments rest : List String} {c : Command}
    (hc : c ∈ [Command.generate, .check]) (hfind : Command.find arguments = .ok (c, rest))
    {a : Arguments} (hflags : Flag.parse c.flags rest = .ok a) (hhelp : a.isOn "help" = false)
    (hoperands : a.operands = []) {file : SchemaFile}
    (hfile : (Request.ofArguments a).schemaFile? t = some file) :
    ∃ g, (plan arguments).run t = ((Request.ofArguments a).bare.onward c g
        ((Request.ofArguments a).bare.loadedLog file)).run t ∧
      g.variants = file.variants ++ a.values "decl" ∧
      g.imports = file.imports ++ a.values "import" ∧
      g.generator = file.generator ∧ g.lines = file.lines ∧
      g.package = (if a.given? "package" = some "" then file.package
        else (a.given? "package").getD file.package) ∧
      g.output = (if a.given? "output" = some "" then file.output
        else (a.given? "output").getD file.output) ∧
      g.exportFields = (if (a.given? "export-fields").bind boolean? = some false
        then file.exportFields
        else ((a.given? "export-fields").bind boolean?).getD file.exportFields) ∧
      (Request.effective g = Request.effective (a.overrule file) ↔ ¬a.TakesBack file) := by
  -- A flag for title case that is given was parsed, so its value is one of the two.
  have hswitch := fun v => isSome_boolean?_of_given? (v := v) hc hflags
  refine ⟨(Request.ofArguments a).mergeInto file, ?_, rfl, rfl, rfl, rfl,
    Request.package_mergeInto a file, Request.output_mergeInto a file,
    Request.exportFields_mergeInto file hswitch,
    Request.effective_mergeInto_eq_iff file hswitch⟩
  rw [plan_of_find hc hfind hflags, hhelp, hoperands, Request.onward_bare]
  simp only [Bool.false_eq_true, if_false]
  rw [Request.plan_eq_load hc, Request.run_load (Request.loaded?_of_schemaFile? hfile)]
  rfl

/-- Flags that say something else than the schema file does, one of them twice. -/
theorem run_settings_check :
    let t : FileTree := ⟨[(["s.yaml"],
      .file "package: old\noutput: old.go\nvariants:\n  - \"A : Token t\"\n")]⟩
    let arguments := ["check", "-c", "s.yaml", "-p", "ast", "-onew.go", "--export-fields",
      "--package=lox", "-d", "B : Token t", "--import", "fmt"]
    ∃ g, (plan arguments).run t =
        ((Request.bare { schemaPath := "s.yaml" }).onward .check g []).run t ∧
      g.variants = ["A : Token t", "B : Token t"] ∧ g.imports = ["fmt"] ∧ g.package = "lox" ∧
      g.output = "new.go" ∧ g.exportFields = true := by
  intro t arguments
  let a : Arguments := ⟨[⟨"config", "s.yaml"⟩, ⟨"package", "ast"⟩, ⟨"output", "new.go"⟩,
    ⟨"export-fields", "true"⟩, ⟨"package", "lox"⟩, ⟨"decl", "B : Token t"⟩, ⟨"import", "fmt"⟩], []⟩
  have hfind : Command.find arguments = .ok (.check, arguments.tail) :=
    find_name (c := .check) (by decide) arguments.tail
  have hflags : Flag.parse Command.check.flags arguments.tail = .ok a := by decide +kernel
  have hfile : (Request.ofArguments a).schemaFile? t =
      some { package := "old", output := "old.go", variants := ["A : Token t"] } := by
    decide +kernel
  obtain ⟨g, hrun, hvariants, himports, -, -, hpackage, houtput, hexport, -⟩ :=
    run_settings (by decide) hfind hflags (by decide) rfl hfile
  exact ⟨g, hrun, hvariants, himports, hpackage.trans (by decide), houtput.trans (by decide),
    hexport.trans (by decide)⟩

/-- A false value for title case is given, and an empty package, but the run prints another text
than the one of the settings that these flags ask for. -/
theorem run_settings_kept :
    let content := "package: lox\nexport_fields: true\nvariants:\n  - \"A : Token t\"\n"
    let t : FileTree := ⟨[(["s.yaml"], .file content)]⟩
    let arguments := ["generate", "-c", "s.yaml", "-p", "", "--export-fields=false"]
    let file : SchemaFile :=
      { package := "lox", exportFields := true, variants := ["A : Token t"] }
    let a : Arguments :=
      ⟨[⟨"config", "s.yaml"⟩, ⟨"package", ""⟩, ⟨"export-fields", "false"⟩], []⟩
    SchemaFile.ofContent (some .yaml) content = .ok file ∧
      Flag.parse Command.generate.flags arguments.tail = .ok a ∧
      a.overrule file = { variants := ["A : Token t"] } ∧
      generate (a.overrule file).options file.variants ≠ .ok ((plan arguments).run t).1.output := by
  decide +kernel

end NodeFamily.CommandLine
