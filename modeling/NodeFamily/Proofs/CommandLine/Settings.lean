import NodeFamily.Proofs.CommandLine.Agreement

/-!
# The settings of a run

Every run of `generate` and `check` begins with the schema file, if one is named. Either the run
ends there, or it goes on with the settings of that file and what the flags add to them
(`run_load_cases`). Nothing else happens before, so that what a run prints, shows and complains
about can be told from the settings.
-/

namespace NodeFamily.CommandLine.Request

variable {r : Request} {t : FileTree}

/-- What the schema file of a request holds: nothing at all when none is named. -/
def schemaFile? (r : Request) (t : FileTree) : Option SchemaFile :=
  if r.schemaPath = "" then some {}
  else match t.read r.schemaPath with
    | .error _ => none
    | .ok content => (SchemaFile.ofContent (some (Format.ofPath r.schemaPath)) content).toOption

/-- Without a schema file there are no settings but those that the flags add. -/
theorem eq_empty_of_schemaFile? {file : SchemaFile} (h : r.schemaFile? t = some file)
    (hpath : r.schemaPath = "") : file = {} := by
  rw [schemaFile?, if_pos hpath] at h
  exact (Option.some.inj h).symm

/-- The log line about the schema file, which is there when one is named and all lines are asked
for. -/
def loadedLog (r : Request) (f : SchemaFile) : List LogLine :=
  if r.schemaPath = "" then [] else r.shown [loadedLine r.schemaPath f]

/-- A run either ends at the schema file, with a complaint about it and nothing else, or goes on
with the settings of the schema file and what the flags add to them. -/
theorem run_load_cases (r : Request) (next : SchemaFile → List LogLine → Plan) (t : FileTree) :
    (∃ c, (r.load next).run t = (⟨"", [], some c⟩, t) ∧ ∀ ds, c ≠ .faulty ds) ∨
      ∃ file, r.schemaFile? t = some file ∧
        (r.load next).run t = (next (r.mergeInto file) (r.loadedLog file)).run t := by
  unfold load schemaFile? loadedLog
  by_cases hpath : r.schemaPath = ""
  · simp [hpath]
  · simp only [hpath, if_false, Plan.run]
    cases t.read r.schemaPath with
    | error e => exact .inl ⟨.schemaFile r.schemaPath e, rfl, by simp⟩
    | ok content =>
      dsimp only
      cases SchemaFile.ofContent (some (Format.ofPath r.schemaPath)) content with
      | error e => exact .inl ⟨.schemaContent r.schemaPath e, rfl, by simp⟩
      | ok file => exact .inr ⟨file, rfl, rfl⟩

/-- Writing a file prints nothing, and complains about a directory or a file if about anything. -/
theorem run_writePlan (r : Request) (path code : String) (log : List LogLine) (t : FileTree) :
    ((r.writePlan path code log).run t).1.output = "" ∧
      ∀ ds, ((r.writePlan path code log).run t).1.complaint? ≠ some (.faulty ds) := by
  unfold writePlan
  rw [Plan.run]
  cases t.makeDirectories (Path.parent path) with
  | mk made t =>
    cases made with
    | error e => simp [Plan.fail, Plan.run]
    | ok _ =>
      dsimp only
      rw [Plan.run]
      cases t.write path code with
      | error e => simp [Plan.change, Plan.fail, Plan.run]
      | ok t' => simp [Plan.change, Plan.run]

end NodeFamily.CommandLine.Request
