import NodeFamily.Proofs.CommandLine.Agreement
import NodeFamily.Proofs.DeclarationGrammar
import NodeFamily.Proofs.Dump.RoundTrip

/-!
# The schema that `generate` prints

Asked for the schema, `generate` prints a JSON document from which anybody may go on as from the
declarations: it holds the very schema that reading them gives, and what is generated from that one
is what is generated from them, whatever the options (`dump_faithful`).

All declarations may stand on the command line (`dumpArguments`), where each is taken as it is, or
come from a schema file in front of those.
-/

namespace NodeFamily

/-- Reading gives a schema whose fields are marked. -/
theorem classify_of_parse {failFast : Bool} {decls : List String} {s : Schema}
    (h : parse failFast decls = .ok s) : s.classify = s := by
  unfold parse at h
  dsimp only at h
  split_ifs at h
  all_goals
    obtain rfl := Except.ok.inj h
    exact Schema.classify_classify _

/-- Generating from declarations that are read is generating from their schema. -/
theorem generate_eq_generateSchema {failFast : Bool} {decls : List String} {s : Schema}
    (h : parse failFast decls = .ok s) (o : Options) :
    generate o decls = generateSchema o (some s) := by
  have hparse : parse o.failFast decls = .ok s := parse_iff.2 (parse_iff.1 h)
  rw [generate, hparse]

namespace CommandLine

/-! ## Declarations as arguments -/

/-- The arguments that hand over declarations. -/
def declArguments (decls : List String) : List String := decls.flatMap fun d => ["-d", d]

/-- The command line that asks for the schema of declarations. -/
def dumpArguments (decls : List String) : List String :=
  "generate" :: "--dump-ir" :: declArguments decls

/-- Every declaration is taken as it is, whatever it begins with. -/
theorem parse_declArguments (decls : List String) :
    Flag.parse Command.generate.flags (declArguments decls) =
      .ok { assignments := decls.map (⟨"decl", ·⟩) } := by
  induction decls with
  | nil => rw [declArguments, List.flatMap_nil, Flag.parse, List.map_nil]
  | cons d decls ih =>
    have hletter : Flag.parseLetters Command.generate.flags (some d) ("-d".toList.drop 1) =
        .ok ([⟨"decl", d⟩], true) := rfl
    rw [declArguments, List.flatMap_cons, List.cons_append, List.singleton_append, Flag.parse,
      if_neg (by decide), if_neg (by decide), if_neg (by decide), List.head?_cons, hletter]
    change (Flag.parse _ (declArguments decls) >>= _) = _
    rw [ih]
    rfl

/-- What the arguments after the name of the command say. -/
theorem parse_dumpArguments (decls : List String) :
    Flag.parse Command.generate.flags ("--dump-ir" :: declArguments decls) =
      .ok { assignments := ⟨"dump-ir", "true"⟩ :: decls.map (⟨"decl", ·⟩) } := by
  have hname (next? : Option String) : Flag.parseName Command.generate.flags next? "--dump-ir" =
      .ok ([⟨"dump-ir", "true"⟩], false) := rfl
  rw [Flag.parse, if_neg (by decide), if_neg (by decide), if_pos (by decide), hname]
  change (Flag.parse _ (declArguments decls) >>= _) = _
  rw [parse_declArguments]
  rfl

/-- The arguments ask for the schema of the declarations and nothing else. -/
theorem ofArguments_dumpArguments (decls : List String) :
    Request.ofArguments { assignments := ⟨"dump-ir", "true"⟩ :: decls.map (⟨"decl", ·⟩) } =
      { decls := decls, dump := true } := by
  simp [Request.ofArguments, Arguments.value, Arguments.values, Arguments.isOn, List.filter_map,
    Function.comp_def, boolean?]

/-! ## What is printed -/

/-- A request for the schema prints that of its declarations, where these are read. -/
theorem Request.run_generatePlan_dump {r : Request} {t : FileTree} {f : SchemaFile}
    {log : List LogLine} {s : Schema} (hdump : r.dump = true)
    (hloaded : r.loaded? t = some (f, log)) (hparse : parse r.failFast f.variants = .ok s) :
    r.generatePlan.run t = ({
      output := s.dump
      log := log ++ if isPrinted f then [] else r.shown (s.variants.map variantLine) }, t) := by
  rw [generatePlan, run_load hloaded, hdump, if_pos rfl, dumpPlan, hparse]
  rfl

/-- The command line that asks for the schema of declarations prints it and does nothing else, where
the declarations are read. -/
theorem run_dumpArguments {decls : List String} {s : Schema} (h : parse false decls = .ok s)
    (t : FileTree) : (plan (dumpArguments decls)).run t = ({ output := s.dump }, t) := by
  have hnamed : Command.generate ∈ [Command.generate, .check] := by decide
  have hplan := plan_name hnamed (parse_dumpArguments decls)
  have hhelp : Arguments.isOn { assignments := ⟨"dump-ir", "true"⟩ :: decls.map (⟨"decl", ·⟩) }
      "help" = false := by
    simp [Arguments.isOn, Arguments.value, Arguments.values, List.filter_map, Function.comp_def,
      boolean?]
  have hloaded : Request.loaded? { decls := decls, dump := true } t =
      some ({ variants := decls }, []) := rfl
  rw [hhelp, if_neg Bool.false_ne_true] at hplan
  change plan (dumpArguments decls) = (Request.ofArguments _).generatePlan at hplan
  rw [hplan, ofArguments_dumpArguments, Request.run_generatePlan_dump rfl hloaded h]
  rfl

end CommandLine

/-- Where declarations are read, the command line that asks for their schema prints this schema as a
JSON document and does nothing else, and every other request for the schema of these declarations
prints the same, wherever they come from. What stands in the document is the schema that was read,
and generating from that is generating from the declarations, whatever the options. -/
theorem dump_faithful {failFast : Bool} {decls : List String} {s : Schema}
    (h : parse failFast decls = .ok s) :
    (∀ t, (CommandLine.plan (CommandLine.dumpArguments decls)).run t =
        ({ output := s.dump }, t)) ∧
      (∀ (r : CommandLine.Request) (t : FileTree) (f : SchemaFile) (log : List CommandLine.LogLine),
        r.dump = true → r.loaded? t = some (f, log) → f.variants = decls →
          (r.generatePlan.run t).1.output = s.dump ∧
            (r.generatePlan.run t).1.complaint? = none) ∧
      Schema.read? s.dump = some s ∧
      ∀ o, generateSchema o (Schema.read? s.dump) = generate o decls := by
  have hparse (failFast : Bool) : parse failFast decls = .ok s := parse_iff.2 (parse_iff.1 h)
  have hread : Schema.read? s.dump = some s := by
    rw [← classify_of_parse h]
    exact Schema.read?_dump s
  refine ⟨CommandLine.run_dumpArguments (hparse false), fun r t f log hdump hloaded hdecls => ?_,
    hread, fun o => ?_⟩
  · obtain rfl := hdecls
    rw [CommandLine.Request.run_generatePlan_dump hdump hloaded (hparse _)]
    exact ⟨rfl, rfl⟩
  · rw [hread, generate_eq_generateSchema h]

/-- Two declarations, one with a child expression and one with a name in another script. -/
theorem dump_faithful_binary :
    let decls := ["Binary : Expr left, *token.Token op", "Größe : any wert"]
    let s : Schema := ⟨[⟨"Binary", [⟨"Expr", "left", .recursive⟩, ⟨"*token.Token", "op", .leaf⟩]⟩,
      ⟨"Größe", [⟨"any", "wert", .leaf⟩]⟩]⟩
    parse true decls = .ok s ∧
      (CommandLine.plan (CommandLine.dumpArguments decls)).run ⟨[]⟩ =
        ({ output := s.dump }, ⟨[]⟩) ∧
      Schema.read? s.dump = some s ∧
      ∀ o, generateSchema o (Schema.read? s.dump) = generate o decls := by
  intro decls s
  have hparse : parse true decls = .ok s := by decide +kernel
  obtain ⟨hplan, -, hread, hgenerate⟩ := dump_faithful hparse
  exact ⟨hparse, hplan ⟨[]⟩, hread, hgenerate⟩

end NodeFamily
