import NodeFamily.CommandLine.Run
import NodeFamily.Proofs.CommandLine.Arguments
import NodeFamily.Proofs.TreeChanges

/-!
# What a run leaves behind

A run of `generate` that fails leaves no file behind that was not there, and prints nothing; a run
of `check` changes nothing at all (`run_leaves_no_trace`). Both are shown of plans. A plan that only
reads (`OnlyReads`) keeps any tree as it is. A plan that writes its file last (`WritesLast`) has
failed by then or does not fail any more, and up to there it only adds directories.
-/

namespace NodeFamily.CommandLine

namespace Plan

/-- A plan that asks for nothing but the contents of files. -/
inductive OnlyReads : Plan → Prop
  /-- It asks for nothing. -/
  | finish (o : Outcome) : OnlyReads (.finish o)
  /-- It asks for a content, and goes on reading. -/
  | read (path : String) (next : Except FileError String → Plan)
      (h : ∀ answer, OnlyReads (next answer)) : OnlyReads (.read path next)

/-- A plan that does not fail once it has written a file, and prints nothing when it fails. -/
inductive WritesLast : Plan → Prop
  /-- It ends, and when it fails it prints nothing. -/
  | finish (o : Outcome) (h : o.complaint? ≠ none → o.output = "") : WritesLast (.finish o)
  /-- It asks for a content. -/
  | read (path : String) (next : Except FileError String → Plan)
      (h : ∀ answer, WritesLast (next answer)) : WritesLast (.read path next)
  /-- It asks for a directory. -/
  | makeDirectories (names : List String) (next : Except FileError Unit → Plan)
      (h : ∀ answer, WritesLast (next answer)) : WritesLast (.makeDirectories names next)
  /-- It asks for a file to be written, and ends without failing when it was. -/
  | write (path content : String) (next : Except FileError Unit → Plan)
      (h : ∀ e, WritesLast (next (.error e))) (o : Outcome) (hnext : next (.ok ()) = .finish o)
      (ho : o.complaint? = none) : WritesLast (.write path content next)

/-- A plan that only reads leaves the tree as it is. -/
theorem OnlyReads.run {p : Plan} (h : p.OnlyReads) (t : FileTree) : (p.run t).2 = t := by
  induction h with
  | finish o => rfl
  | read path next _ ih => exact ih (t.read path)

/-- When a plan that writes last fails, it prints nothing, and the tree has at most more
directories. -/
theorem WritesLast.run {p : Plan} (h : p.WritesLast) {t : FileTree}
    (hfail : (p.run t).1.complaint? ≠ none) :
    (p.run t).1.output = "" ∧ t.AddsDirectories (p.run t).2 := by
  induction h generalizing t with
  | finish o ho => exact ⟨ho hfail, .refl t⟩
  | read path next _ ih => exact ih (t.read path) hfail
  | makeDirectories names next _ ih =>
    have hmade : t.AddsDirectories (t.makeDirectories names).2 :=
      t.addsDirectories_makeBelow [] names
    obtain ⟨hprinted, hadded⟩ := ih (t.makeDirectories names).1 hfail
    exact ⟨hprinted, hmade.trans hadded⟩
  | write path content next _ o hnext ho ih =>
    cases hwrite : t.write path content with
    | error e =>
      have hrun : Plan.run t (.write path content next) = Plan.run t (next (.error e)) := by
        simp only [Plan.run, hwrite, change]
      rw [hrun] at hfail ⊢
      exact ih e hfail
    | ok t' =>
      -- The file is written, and the plan ends without failing.
      have hrun : Plan.run t (.write path content next) = (o, t') := by
        simp only [Plan.run, hwrite, change, hnext]
      rw [hrun] at hfail
      exact absurd ho hfail

/-- A plan that fails at once prints nothing. -/
theorem writesLast_fail (log : List LogLine) (c : Complaint) : (fail log c).WritesLast :=
  .finish _ fun _ => rfl

end Plan

open Plan (OnlyReads WritesLast writesLast_fail)

namespace Request

/-- Reading the schema file writes nothing, so that it matters only how it goes on. -/
theorem writesLast_load (r : Request) {next : SchemaFile → List LogLine → Plan}
    (h : ∀ f log, (next f log).WritesLast) : (r.load next).WritesLast := by
  unfold load
  split_ifs
  · exact h _ _
  · refine .read _ _ fun answer => ?_
    split
    · exact writesLast_fail _ _
    · split
      · exact writesLast_fail _ _
      · exact h _ _

/-- Reading the schema file is reading, so that it matters only how it goes on. -/
theorem onlyReads_load (r : Request) {next : SchemaFile → List LogLine → Plan}
    (h : ∀ f log, (next f log).OnlyReads) : (r.load next).OnlyReads := by
  unfold load
  split_ifs
  · exact h _ _
  · refine .read _ _ fun answer => ?_
    split
    · exact .finish _
    · split
      · exact .finish _
      · exact h _ _

/-- The file is written when its directory was made, and nothing can fail after it. -/
theorem writesLast_writePlan (r : Request) (path code : String) (log : List LogLine) :
    (r.writePlan path code log).WritesLast := by
  unfold writePlan
  refine .makeDirectories _ _ fun answer => ?_
  split
  · exact writesLast_fail _ _
  · exact .write _ _ _ (fun e => writesLast_fail _ _) _ rfl rfl

/-- Generating writes its file last. -/
theorem writesLast_generatePlan (r : Request) : r.generatePlan.WritesLast := by
  refine r.writesLast_load fun f log => ?_
  split_ifs
  · unfold dumpPlan
    split
    · exact writesLast_fail _ _
    · exact .finish _ fun h => absurd rfl h
  · unfold codePlan
    dsimp only
    split
    · exact writesLast_fail _ _
    · split_ifs
      · exact .finish _ fun h => absurd rfl h
      · exact r.writesLast_writePlan _ _ _

/-- Checking only reads. -/
theorem onlyReads_checkPlan (r : Request) : r.checkPlan.OnlyReads := by
  refine r.onlyReads_load fun f log => ?_
  split_ifs
  · exact .finish _
  · dsimp only
    split
    · exact .finish _
    · unfold comparePlan
      refine .read _ _ fun answer => ?_
      split
      · split_ifs
        · exact .finish _
        · exact .finish _
      · split_ifs
        · exact .finish _
        · split
          · exact .finish _
          · exact .finish _

end Request

/-- What a command does with its arguments has a property when its own plan has it, as far as the
plans that end at once have it. -/
theorem plan_cases {property : Plan → Prop} {arguments rest : List String} {c : Command}
    (hfind : Command.find arguments = .ok (c, rest))
    (hfail : ∀ complaint, property (.fail [] complaint)) (hprint : ∀ s, property (.print s))
    (hplan : ∀ a, property (c.plan a)) : property (plan arguments) := by
  unfold plan
  rw [hfind]
  dsimp only
  split
  · exact hfail _
  · split_ifs
    · exact hprint _
    · split
      · exact hfail _
      · exact hplan _

/-- A run of `generate` that fails, for whichever reason, prints nothing, and at each place stands
what stood there before, but for directories that were made where nothing stood. A run of `check`
leaves the whole tree as it is, whether it fails or not. -/
theorem run_leaves_no_trace (t : FileTree) (arguments : List String) :
    match Command.find arguments with
    | .ok (.generate, _) => ((plan arguments).run t).1.complaint? ≠ none →
        ((plan arguments).run t).1.output = "" ∧
          t.AddsDirectories ((plan arguments).run t).2
    | .ok (.check, _) => ((plan arguments).run t).2 = t
    | _ => True := by
  split
  · next rest hfind =>
    have hlast : (plan arguments).WritesLast :=
      plan_cases hfind (writesLast_fail []) (fun s => .finish _ fun h => absurd rfl h)
        fun a => (Request.ofArguments a).writesLast_generatePlan
    exact hlast.run
  · next rest hfind =>
    have hreads : (plan arguments).OnlyReads :=
      plan_cases hfind (fun c => .finish _) (fun s => .finish _)
        fun a => (Request.ofArguments a).onlyReads_checkPlan
    exact hreads.run t
  · trivial

/-- A file cannot be written over the directory that was made for it: the directory stays, and the
schema file is as it was. A check of the same file leaves no directory either. -/
theorem run_leaves_no_trace_directory :
    let t : FileTree := ⟨[(["s.txt"], .file "A : Token t")]⟩
    let flags := ["-c", "s.txt", "-o", "out/"]
    let (outcome, t') := (plan ("generate" :: flags)).run t
    outcome.complaint?.isSome ∧ t'.get? ["out"] = some .directory ∧
      (outcome.output = "" ∧ t.AddsDirectories t') ∧ ((plan ("check" :: flags)).run t).2 = t := by
  intro t flags
  have hgenerate : Command.find ("generate" :: flags) = .ok (.generate, flags) :=
    find_name (c := .generate) (by decide) flags
  have hcheck : Command.find ("check" :: flags) = .ok (.check, flags) :=
    find_name (c := .check) (by decide) flags
  have hfail : ((plan ("generate" :: flags)).run t).1.complaint?.isSome := by decide +kernel
  have hmade : ((plan ("generate" :: flags)).run t).2.get? ["out"] = some .directory := by
    decide +kernel
  have htrace := run_leaves_no_trace t ("generate" :: flags)
  have hkeep := run_leaves_no_trace t ("check" :: flags)
  rw [hgenerate] at htrace
  rw [hcheck] at hkeep
  exact ⟨hfail, hmade, htrace (Option.isSome_iff_ne_none.1 hfail), hkeep⟩

end NodeFamily.CommandLine
