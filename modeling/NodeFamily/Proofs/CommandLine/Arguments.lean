import Mathlib.Tactic.SplitIfs
import NodeFamily.CommandLine.Command

/-!
# Arguments of commands

A command line that begins with the name of a command is for that command (`find_name`). The flags
of `check` are those of `generate` without one, so that arguments which do not give that flag say
the same to both commands (`parse_check`).
-/

namespace NodeFamily.CommandLine

/-! ## The name of the command -/

/-- An argument that does not begin with a dash takes no argument after it. -/
theorem takesNext_of_head? (flags : List Flag) {argument : String}
    (h : argument.toList.head? ≠ some '-') : Flag.takesNext flags argument = false := by
  unfold Flag.takesNext
  split
  · next hlist => exact absurd (by rw [hlist]; rfl) h
  · next hlist => exact absurd (by rw [hlist]; rfl) h
  · rfl

/-- A command line that begins with the name of a command is for that command, and its arguments are
what follows. -/
theorem find_name {c : Command} (hc : c ∈ Command.named) (rest : List String) :
    Command.find (c.name :: rest) = .ok (c, rest) := by
  have hname : c.name.toList.head? ≠ some '-' ∧ c.name ≠ "" ∧ c.name ≠ "--" ∧
      Command.named.find? (·.name = c.name) = some c := by
    revert c
    decide
  obtain ⟨hdash, hne, hlone, hfirst⟩ := hname
  have hnext := takesNext_of_head? [verboseFlag] hdash
  have hstrip : (Flag.strip [verboseFlag] (c.name :: rest)).head? = some c.name := by
    simp [Flag.strip.eq_def [verboseFlag] (c.name :: rest), hlone, hnext, hne, hdash]
  have hwithout : Flag.without [verboseFlag] c.name (c.name :: rest) = rest := by
    simp [Flag.without.eq_def [verboseFlag] c.name (c.name :: rest), hlone, hnext]
  simp only [Command.find, hstrip, hfirst, hwithout]

/-! ## Flags that two commands share -/

/-- Two flags are told apart by nothing that matters when arguments are read. -/
def Flag.IsLike (f g : Flag) : Prop := f.name = g.name ∧ f.kind = g.kind

/-- Each flag of a list, but for the one called `hidden`, which has no letter, is found in another
list too. -/
structure Shares (hidden : String) (flags others : List Flag) : Prop where
  /-- The flags are found by name. -/
  named {n : String} {f : Flag} : n ≠ hidden → Flag.named? flags n = some f →
    ∃ g, Flag.named? others n = some g ∧ f.IsLike g
  /-- The flags are found by letter. -/
  lettered {c : Char} {f : Flag} : Flag.lettered? flags c = some f →
    ∃ g, Flag.lettered? others c = some g ∧ f.IsLike g

namespace Flag

/-- What is assigned has the name of the flag. -/
theorem name_of_assign {f : Flag} {value : String} {x : Assignment}
    (h : f.assign value = .ok x) : x.name = f.name := by
  unfold assign at h
  split_ifs at h
  exact Except.ok.inj h ▸ rfl

/-- Of two flags that are alike, one takes the values that the other takes. -/
theorem IsLike.assign {f g : Flag} (h : f.IsLike g) {value : String} {x : Assignment}
    (hx : f.assign value = .ok x) : g.assign value = .ok x := by
  unfold Flag.assign at hx ⊢
  rw [← h.1, ← h.2]
  split_ifs at hx ⊢
  exact hx

/-- Of two flags that are alike, the value of one may be left out when that of the other may. -/
theorem IsLike.isOptional {f g : Flag} (h : f.IsLike g) : g.isOptional = f.isOptional := by
  unfold Flag.isOptional
  rw [h.2]

/-- A single assignment is that of the flag. -/
theorem exists_of_map_assign {f : Flag} {value : String} {used : Bool}
    {r : List Assignment × Bool} (h : ((f.assign value).map fun a => ([a], used)) = .ok r) :
    ∃ x, f.assign value = .ok x ∧ r = ([x], used) := by
  cases hf : f.assign value with
  | error e =>
    rw [hf] at h
    exact absurd h (by simp [Except.map])
  | ok x =>
    rw [hf] at h
    exact ⟨x, rfl, (Except.ok.inj h).symm⟩

/-- A single assignment to one of two flags that are alike is one to the other. -/
theorem IsLike.map_assign {f g : Flag} (h : f.IsLike g) {value : String} {used : Bool}
    {r : List Assignment × Bool} (hr : ((f.assign value).map fun a => ([a], used)) = .ok r) :
    ((g.assign value).map fun a => ([a], used)) = .ok r := by
  obtain ⟨x, hx, rfl⟩ := exists_of_map_assign hr
  rw [h.assign hx]
  rfl

/-- One reading after another succeeds exactly when both do. -/
theorem bind_eq_ok_iff {α β : Type} {x : Except FlagError α} {f : α → Except FlagError β} {b : β} :
    (x >>= f) = .ok b ↔ ∃ a, x = .ok a ∧ f a = .ok b := by
  cases x <;> simp [bind, Except.bind]

variable {hidden : String} {flags others : List Flag}

/-- Letters are read alike with flags that are shared. -/
theorem parseLetters_of_shares (h : Shares hidden flags others) {next? : Option String}
    {letters : List Char} {r : List Assignment × Bool}
    (hr : parseLetters flags next? letters = .ok r) :
    parseLetters others next? letters = .ok r := by
  induction letters generalizing r with
  | nil => exact hr
  | cons c more ih =>
    unfold parseLetters at hr ⊢
    by_cases hmark : testMark.isPrefixOf (c :: more)
    · rwa [if_pos hmark] at hr ⊢
    · rw [if_neg hmark] at hr ⊢
      cases hf : lettered? flags c with
      | none => simp [hf] at hr
      | some f =>
        obtain ⟨g, hg, hlike⟩ := h.lettered hf
        simp only [hf, hg, hlike.isOptional] at hr ⊢
        split_ifs at hr ⊢
        · exact hlike.map_assign hr
        · -- The letters after one that takes no value are read by themselves.
          obtain ⟨x, hx, hr⟩ := bind_eq_ok_iff.1 hr
          obtain ⟨r', hr', hr⟩ := bind_eq_ok_iff.1 hr
          exact bind_eq_ok_iff.2 ⟨x, hlike.assign hx, bind_eq_ok_iff.2 ⟨r', ih hr', hr⟩⟩
        · exact hlike.map_assign hr
        · cases next? with
          | some value => exact hlike.map_assign hr
          | none => exact hr

/-- A name is read alike with flags that are shared, unless it is that of the one that is not. -/
theorem parseName_of_shares (h : Shares hidden flags others) {next? : Option String}
    {argument : String} {r : List Assignment × Bool}
    (hr : parseName flags next? argument = .ok r) (hhidden : ∀ x ∈ r.1, x.name ≠ hidden) :
    parseName others next? argument = .ok r := by
  unfold parseName at hr ⊢
  dsimp only at hr ⊢
  generalize (argument.toList.drop 2).takeWhile (· ≠ '=') = name at hr ⊢
  by_cases hform : ((argument.toList.drop 2).head? = some '-' ||
      (argument.toList.drop 2).head? = some '=') = true
  · rwa [if_pos hform] at hr ⊢
  · rw [if_neg hform] at hr ⊢
    cases hf : named? flags (String.ofList name) with
    | none => simp [hf] at hr
    | some f =>
      have hname : f.name = String.ofList name := by
        simpa using List.find?_some hf
      simp only [hf] at hr
      -- Whichever value the flag is given, it is not the one that is not shared.
      have hne : String.ofList name ≠ hidden := by
        have hassigned : ∃ x ∈ r.1, x.name = f.name := by
          split_ifs at hr
          · obtain ⟨x, hx, rfl⟩ := exists_of_map_assign hr
            exact ⟨x, List.mem_singleton_self x, name_of_assign hx⟩
          · obtain ⟨x, hx, rfl⟩ := exists_of_map_assign hr
            exact ⟨x, List.mem_singleton_self x, name_of_assign hx⟩
          · cases next? with
            | some value =>
              obtain ⟨x, hx, rfl⟩ := exists_of_map_assign hr
              exact ⟨x, List.mem_singleton_self x, name_of_assign hx⟩
            | none => simp at hr
        obtain ⟨x, hx, hsame⟩ := hassigned
        rw [← hname, ← hsame]
        exact hhidden x hx
      obtain ⟨g, hg, hlike⟩ := h.named hne hf
      simp only [hg, hlike.isOptional]
      split_ifs at hr ⊢
      · exact hlike.map_assign hr
      · exact hlike.map_assign hr
      · cases next? with
        | some value => exact hlike.map_assign hr
        | none => exact hr

/-- Arguments are read alike with flags that are shared, unless they give the one that is not. -/
theorem parse_of_shares (h : Shares hidden flags others) {arguments : List String} {a : Arguments}
    (ha : parse flags arguments = .ok a) (hhidden : ∀ x ∈ a.assignments, x.name ≠ hidden) :
    parse others arguments = .ok a := by
  induction arguments using parse.induct flags generalizing a with
  | case1 => rwa [parse] at ha ⊢
  | case2 rest => rwa [parse, if_pos rfl] at ha ⊢
  | case3 argument rest hlone hoperand ih =>
    rw [parse, if_neg hlone, if_pos hoperand] at ha ⊢
    cases hrest : parse flags rest with
    | error e => simp [hrest, Except.map] at ha
    | ok a' =>
      rw [hrest] at ha
      obtain rfl := Except.ok.inj ha
      rw [ih hrest hhidden]
      rfl
  | case4 argument rest hlone hoperand hname ih =>
    rw [parse, if_neg hlone, if_neg hoperand, if_pos hname] at ha ⊢
    obtain ⟨r, hr, ha⟩ := bind_eq_ok_iff.1 ha
    obtain ⟨a', ha', ha⟩ := bind_eq_ok_iff.1 ha
    obtain rfl := Except.ok.inj ha
    rw [List.forall_mem_append] at hhidden
    refine bind_eq_ok_iff.2 ⟨r, parseName_of_shares h hr hhidden.1, bind_eq_ok_iff.2 ⟨a', ?_, rfl⟩⟩
    exact ih r.2 ha' hhidden.2
  | case5 argument rest hlone hoperand hletters ih =>
    rw [parse, if_neg hlone, if_neg hoperand, if_neg hletters] at ha ⊢
    obtain ⟨r, hr, ha⟩ := bind_eq_ok_iff.1 ha
    obtain ⟨a', ha', ha⟩ := bind_eq_ok_iff.1 ha
    obtain rfl := Except.ok.inj ha
    rw [List.forall_mem_append] at hhidden
    refine bind_eq_ok_iff.2 ⟨r, parseLetters_of_shares h hr, bind_eq_ok_iff.2 ⟨a', ?_, rfl⟩⟩
    exact ih r.2 ha' hhidden.2

end Flag

/-- A flag of `generate` is found among those of `check` as well, where it is looked for by
something that the flag which asks for the schema does not have. -/
theorem exists_find?_check {p : Flag → Bool} (hdump : p dumpFlag = false)
    (hhelp : p Command.generate.helpFlag = p Command.check.helpFlag) {f : Flag}
    (hf : Command.generate.flags.find? p = some f) :
    ∃ g, Command.check.flags.find? p = some g ∧ f.IsLike g := by
  have hgenerate : Command.generate.flags =
      schemaFlags ++ [dumpFlag, verboseFlag, Command.generate.helpFlag] := rfl
  have hcheck : Command.check.flags = schemaFlags ++ [verboseFlag, Command.check.helpFlag] := rfl
  rw [hgenerate, List.find?_append] at hf
  rw [hcheck, List.find?_append]
  cases hschema : schemaFlags.find? p with
  | some g =>
    rw [hschema] at hf
    exact ⟨g, rfl, Option.some.inj hf ▸ ⟨rfl, rfl⟩⟩
  | none =>
    rw [hschema, Option.none_or, List.find?_cons_of_neg (by simp [hdump])] at hf
    rw [Option.none_or]
    by_cases hverbose : p verboseFlag
    · rw [List.find?_cons_of_pos hverbose] at hf ⊢
      exact ⟨verboseFlag, rfl, Option.some.inj hf ▸ ⟨rfl, rfl⟩⟩
    · rw [List.find?_cons_of_neg hverbose] at hf ⊢
      -- The flags that ask for help differ in what they are for.
      by_cases hp : p Command.check.helpFlag
      · rw [List.find?_cons_of_pos (hhelp.trans hp)] at hf
        rw [List.find?_cons_of_pos hp]
        exact ⟨_, rfl, Option.some.inj hf ▸ ⟨rfl, rfl⟩⟩
      · rw [List.find?_cons_of_neg (hhelp ▸ hp)] at hf
        exact absurd hf (by simp)

/-- The flags of `generate` are those of `check`, but for the one that asks for the schema. -/
theorem shares_check : Shares dumpFlag.name Command.generate.flags Command.check.flags where
  named hne hf := exists_find?_check (decide_eq_false hne.symm) rfl hf
  lettered hf := exists_find?_check rfl rfl hf

/-- Arguments that do not ask for the schema say the same to `generate` and to `check`. -/
theorem parse_check {arguments : List String} {a : Arguments}
    (ha : Flag.parse Command.generate.flags arguments = .ok a)
    (hdump : ∀ x ∈ a.assignments, x.name ≠ dumpFlag.name) :
    Flag.parse Command.check.flags arguments = .ok a :=
  Flag.parse_of_shares shares_check ha hdump

end NodeFamily.CommandLine
