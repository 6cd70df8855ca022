import NodeFamily.CommandLine.Plan
import NodeFamily.SchemaDump

/-!
# Running a command line

`plan` turns the arguments of the program into what it does. Both `generate` and `check` begin with
the settings of a schema file, if one is named, and what the flags add to them. `generate` writes
the file or prints it, and `check` compares it with the one that is there. When there is no file to
write, no log line of `generate` follows the one about the schema file.
-/

namespace NodeFamily.CommandLine

/-- What the flags of `generate` and `check` ask for. -/
structure Request where
  /-- The path of the schema file, or the empty text. -/
  schemaPath : String := ""
  /-- Further declarations. -/
  decls : List String := []
  /-- The path of the file to write; the empty text leaves the choice to the schema file. -/
  output : String := ""
  /-- The package; the empty text leaves the choice to the schema file. -/
  package : String := ""
  /-- Further import paths. -/
  imports : List String := []
  /-- Whether struct fields are put into title case, whatever the schema file says. -/
  exportFields : Bool := false
  /-- Whether to stop at the first fault. -/
  failFast : Bool := false
  /-- Whether the schema is printed in place of the file. -/
  dump : Bool := false
  /-- Whether all log lines are shown. -/
  verbose : Bool := false
deriving DecidableEq, Repr

namespace Request

/-- What arguments ask for. -/
def ofArguments (a : Arguments) : Request :=
  { schemaPath := a.value "config"
    decls := a.values "decl"
    output := a.value "output"
    package := a.value "package"
    imports := a.values "import"
    exportFields := a.isOn "export-fields"
    failFast := a.isOn "fail-fast"
    dump := a.isOn "dump-ir"
    verbose := a.isOn "verbose" }

/-- The settings of a schema file with what is asked for on top of them. -/
def mergeInto (r : Request) (f : SchemaFile) : SchemaFile :=
  { f with
    variants := f.variants ++ r.decls
    imports := f.imports ++ r.imports
    output := if r.output = "" then f.output else r.output
    package := if r.package = "" then f.package else r.package
    exportFields := f.exportFields || r.exportFields }

/-- The options for generating from settings. -/
def options (r : Request) (f : SchemaFile) : Options := { f.options with failFast := r.failFast }

/-- The log lines that are shown. -/
def shown (r : Request) (log : List LogLine) : List LogLine :=
  log.filter fun l => r.verbose || l.level ≠ .verbose

/-- Where the declaration of a fault comes from: the schema file and the line there. -/
def origin? (r : Request) (f : SchemaFile) (fault : Fault) : Option (String × Nat) :=
  match fault.place.decl? with
  | none => none
  | some i =>
    let line := f.line i
    if line = 0 ∨ r.schemaPath = "" then none else some (r.schemaPath, line)

/-- The complaint about faults. -/
def diagnose (r : Request) (f : SchemaFile) (faults : List Fault) : Complaint :=
  .faulty (faults.map fun fault => ⟨r.origin? f fault, fault⟩)

/-- The complaint about a failure. -/
def complain (r : Request) (f : SchemaFile) : Failure → Complaint
  | .faulty faults => r.diagnose f faults
  | failure => .failure failure

/-- The log line about a schema file. -/
def loadedLine (path : String) (f : SchemaFile) : LogLine :=
  ⟨.verbose, ["loaded", path, "with", toString f.variants.length, "declarations"]⟩

/-- The log line about what is generated. -/
def generatingLine (o : Options) (f : SchemaFile) : LogLine :=
  ⟨.verbose,
    ["generating package", o.package, "from", toString f.variants.length, "declarations"]⟩

/-- The log line about a variant. -/
def variantLine (v : Variant) : LogLine :=
  ⟨.verbose, ["variant", v.name, "recursive:", toString v.isRecursive, "visit:", v.visitName]⟩

/-- Reads the schema file, if one is named, and goes on with the settings and the log line about
it. -/
def load (r : Request) (next : SchemaFile → List LogLine → Plan) : Plan :=
  if r.schemaPath = "" then next (r.mergeInto {}) []
  else .read r.schemaPath fun
    | .error e => .fail [] (.schemaFile r.schemaPath e)
    | .ok content =>
      match SchemaFile.ofContent (some (Format.ofPath r.schemaPath)) content with
      | .error e => .fail [] (.schemaContent r.schemaPath e)
      | .ok f => next (r.mergeInto f) (r.shown [loadedLine r.schemaPath f])

/-- Whether the result is printed and not written to a file. -/
def isPrinted (f : SchemaFile) : Bool := f.output = "" || f.output = "-"

/-- Prints the schema as JSON. -/
def dumpPlan (r : Request) (f : SchemaFile) (log : List LogLine) : Plan :=
  match parse r.failFast f.variants with
  | .error faults => .fail log (r.diagnose f faults)
  | .ok schema =>
    let more := if isPrinted f then [] else r.shown (schema.variants.map variantLine)
    .finish { output := schema.dump, log := log ++ more }

/-- Writes the file to its place. -/
def writePlan (r : Request) (path code : String) (log : List LogLine) : Plan :=
  .makeDirectories (Path.parent path) fun
    | .error e => .fail log (.directory e)
    | .ok () => .write path code fun
      | .error e => .fail log (.unwritableOutput e)
      | .ok () => .finish { log := log ++ r.shown [⟨.info, ["wrote", path]⟩] }

/-- Generates the file and writes or prints it. -/
def codePlan (r : Request) (f : SchemaFile) (log : List LogLine) : Plan :=
  let o := r.options f
  let log := log ++ (if isPrinted f then [] else r.shown [generatingLine o f])
  match generate o f.variants with
  | .error failure => .fail log (r.complain f failure)
  | .ok code =>
    if isPrinted f then .finish { output := code, log := log }
    else r.writePlan f.output code log

/-- What `generate` does. -/
def generatePlan (r : Request) : Plan :=
  r.load fun f log => if r.dump then r.dumpPlan f log else r.codePlan f log

/-- Compares the file with what is generated. -/
def comparePlan (r : Request) (path want : String) (log : List LogLine) : Plan :=
  .read path fun
    | .error e =>
      if e.cause = .notFound then .fail log (.missingOutput path)
      else .fail log (.unreadableOutput path e)
    | .ok actual =>
      if actual = want then .finish { log := log ++ r.shown [⟨.verbose, [path, "is up to date"]⟩] }
      else match Difference.reportOrFail path actual want with
        | .error e => .fail log (.brokenOff e)
        | .ok shown =>
          .finish { output := shown, log := log, complaint? := some (.staleOutput path) }

/-- What `check` does. -/
def checkPlan (r : Request) : Plan :=
  r.load fun f log =>
    if isPrinted f then .fail log .noOutput
    else
      let o := r.options f
      let log := log ++ r.shown [generatingLine o f]
      match generate o f.variants with
      | .error failure => .fail log (r.complain f failure)
      | .ok want => r.comparePlan f.output want log

end Request

/-- The version of the program. -/
def version : String := "dev"

/-- What `help` prints about operands that name no command. -/
def unknownTopic (operands : List String) : String :=
  "Unknown help topic [" ++ " ".intercalate (operands.map Text.backquote) ++ "]\n" ++
    Command.root.usage false

/-- What a command does with its arguments. -/
def Command.plan (c : Command) (a : Arguments) : Plan :=
  match c with
  | .root | .completion => .print c.helpPage
  | .version => .print (Command.program ++ " version " ++ CommandLine.version ++ "\n")
  | .help =>
    match Command.find a.operands with
    | .ok (topic, _) => .print topic.helpPage
    | .error _ => .print (unknownTopic a.operands)
  | .generate => (Request.ofArguments a).generatePlan
  | .check => (Request.ofArguments a).checkPlan

/-- What the program does with its arguments. -/
def plan (arguments : List String) : Plan :=
  match Command.find arguments with
  | .error n => .fail [] (.unknownCommand n)
  | .ok (c, rest) =>
    match Flag.parse c.flags rest with
    | .error e => .fail [] (.arguments e)
    | .ok a =>
      if a.isOn "help" || !c.isRunnable then .print c.helpPage
      else match c.takesOperands, a.operands with
        | false, v :: _ => .fail [] (.operand v c)
        | _, _ => c.plan a

end NodeFamily.CommandLine
