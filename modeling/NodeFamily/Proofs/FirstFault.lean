import NodeFamily.Generation
import NodeFamily.Proofs.FaultPlaces

/-!
# Stopping at the first fault

Reading with `failFast` reports one fault of those that reading without it reports, and fails
exactly when that one does. Which fault it is depends on the two rounds: a leaf type that names a
variant is only found when all declarations are read, so any other fault goes before it, even one of
a later declaration (`IsFirstOf`). A check of a schema goes through the variants and then through
their fields, and reports in this order, so it stops at its very first fault.
`failFast_reports_first` says both, and with them that there is never more than one fault to report.

The two rounds can be told apart by what they report: only the second one ever says that a type
refers to a variant (`not_isVariantUse_of_mem_faults`, `isVariantUse_of_fault?`).
-/

namespace NodeFamily

/-- A fault that says that a leaf type refers to a variant. -/
def Fault.IsVariantUse (f : Fault) : Prop :=
  f.code = .invalidName ∧ ∃ type base, f.detail = (NameProblem.typeIsVariant type base).text

/-- A fault is the first of a list that does not say of a leaf type that it refers to a variant, or
the very first when each one says that. -/
def Fault.IsFirstOf (e : Fault) (faults : List Fault) : Prop :=
  ∃ before after, faults = before ++ e :: after ∧ (∀ f ∈ before, f.IsVariantUse) ∧
    (¬e.IsVariantUse ∨ (before = [] ∧ ∀ f ∈ faults, f.IsVariantUse))

/-! ## What the rounds report -/

/-- A text begins with a character. -/
def Begins (s : String) (c : Char) : Prop := s.toList.head? = some c

instance (s : String) (c : Char) : Decidable (Begins s c) :=
  inferInstanceAs (Decidable (s.toList.head? = some c))

/-- What a text begins with, it begins with when more follows. -/
theorem Begins.append {s : String} {c : Char} (h : Begins s c) (t : String) :
    Begins (s ++ t) c := by
  rw [Begins] at h ⊢
  rw [String.toList_append, List.head?_append, h, Option.some_or]

/-- A quoted text begins with its quote. -/
theorem begins_quote (s : String) : Begins (Text.quote s) '"' := by
  simp [Begins, Text.quote]

/-- What says that a type refers to a variant begins like the word for a type. -/
theorem begins_typeIsVariant (type base : String) :
    Begins (NameProblem.typeIsVariant type base).text 't' := by
  have hword : Begins "type " 't' := by decide
  unfold NameProblem.text
  exact (((hword.append _).append _).append _).append _

/-- What says that a type refers to a variant holds the words for that. -/
theorem infix_typeIsVariant (type base : String) : " refers to generated variant ".toList <:+:
    (NameProblem.typeIsVariant type base).text.toList := by
  refine ⟨"type ".toList ++ (Text.quote type).toList,
    base.toList ++ "; use Expr for child expressions".toList, ?_⟩
  unfold NameProblem.text
  rw [String.toList_append, String.toList_append, String.toList_append, String.toList_append,
    List.append_assoc, List.append_assoc, List.append_assoc, List.append_assoc, List.append_assoc]

/-- A fault whose detail begins with another letter does not say that a type refers to a variant. -/
theorem not_isVariantUse_of_begins {f : Fault} {c : Char} (h : Begins f.detail c) (hc : c ≠ 't') :
    ¬f.IsVariantUse := by
  rintro ⟨-, type, base, hdetail⟩
  have hhead := begins_typeIsVariant type base
  rw [← hdetail, Begins, h] at hhead
  exact hc (Option.some.inj hhead)

/-- What is wrong with a type apart from the variants is not that it refers to one. -/
theorem not_isVariantUse_of_typeProblem? {t : String} {p : NameProblem}
    (h : typeProblem? (fun _ => false) t = some p) {f : Fault} (hf : f.detail = p.text) :
    ¬f.IsVariantUse := by
  unfold typeProblem? at h
  dsimp only at h
  split_ifs at h with hnode hname hgeneric hfalse
  · obtain rfl := Option.some.inj h
    have hword : Begins "invalid type name " 'i' := by decide
    have hhead : Begins f.detail 'i' := by
      rw [hf]
      exact hword.append _
    exact not_isVariantUse_of_begins hhead (by decide)
  · -- There are only four types whose base is one of the two generic types, and what is wrong with
    -- them is said without the first letter of "variant".
    have hquote : ∀ star ∈ ["", "*"], ∀ b ∈ [nodeName, visitorName],
        'v' ∉ (Text.quote (star ++ b)).toList ∧ 'v' ∉ b.toList := by
      decide +kernel
    obtain ⟨star, hstar, ht⟩ := exists_star t
    obtain ⟨htype, hbase⟩ :=
      hquote star (by simpa using hstar) (typeBase t) (by simpa using hgeneric)
    rw [← ht] at htype
    obtain rfl := Option.some.inj h
    have hnot : 'v' ∉ (NameProblem.typeIsGeneric t (typeBase t)).text.toList := by
      unfold NameProblem.text
      simp only [String.toList_append, List.mem_append, not_or]
      exact ⟨⟨⟨⟨by decide, htype⟩, by decide⟩, hbase⟩, by decide⟩
    rintro ⟨-, type, base, hdetail⟩
    rw [← hf, hdetail] at hnot
    exact hnot ((infix_typeIsVariant type base).subset (by decide))
  · exact hfalse.elim

/-- What is wrong with a field name is not that a type refers to a variant. -/
theorem begins_of_fieldProblem? {n ident variant : String} {p : NameProblem}
    (h : fieldProblem? n ident variant = some p) : Begins p.text 'f' := by
  have hname : Begins "field name " 'f' := by decide
  have hfield : Begins "field " 'f' := by decide
  unfold fieldProblem? at h
  split_ifs at h
  all_goals obtain rfl := Option.some.inj h
  · exact (hname.append _).append _
  · exact (hname.append _).append _
  · exact (hfield.append _).append _

/-- What is wrong with a variant name is not that a type refers to a variant. -/
theorem begins_of_variantProblem? {n : String} {p : NameProblem} (h : variantProblem? n = some p) :
    Begins p.text 'v' := by
  have hsingle : Begins "variant name must be a single identifier, got " 'v' := by decide
  have hname : Begins "variant name " 'v' := by decide
  unfold variantProblem? at h
  split_ifs at h
  all_goals obtain rfl := Option.some.inj h
  · exact hsingle.append _
  · exact (hname.append _).append _

/-- The fault of a header does not say that a type refers to a variant. -/
theorem not_isVariantUse_of_headerFault? {names : List (Option String)} {i : Nat} {d : Declaration}
    {head : List Token} {colon : Token} {f : Fault}
    (h : d.headerFault? names i head colon = some f) : ¬f.IsVariantUse := by
  have hmissing : Begins "missing variant name before ':'" 'm' := by decide
  have hsingle : Begins "variant name must be a single identifier, got " 'v' := by decide
  unfold Declaration.headerFault? at h
  split at h
  · obtain rfl := Option.some.inj h
    exact not_isVariantUse_of_begins hmissing (by decide)
  · split_ifs at h
    · obtain rfl := Option.some.inj h
      exact not_isVariantUse_of_begins (hsingle.append _) (by decide)
    · split at h
      · next p hp =>
        obtain rfl := Option.some.inj h
        exact not_isVariantUse_of_begins (begins_of_variantProblem? hp) (by decide)
      · dsimp only at h
        split_ifs at h
        obtain rfl := Option.some.inj h
        exact not_isVariantUse_of_begins (((begins_quote _).append _).append _) (by decide)
  · obtain rfl := Option.some.inj h
    exact not_isVariantUse_of_begins (hsingle.append _) (by decide)

/-- The fault of a segment does not say that a type refers to a variant. -/
theorem not_isVariantUse_of_read {place : Place} {variant : String} {earlier : List String}
    {s : Segment} {f : Fault} (h : s.read place variant earlier = .error f) : ¬f.IsVariantUse := by
  have hmalformed : ¬(s.malformed place).IsVariantUse := by
    have hword : Begins "expected \"Type name\", got " 'e' := by decide
    exact not_isVariantUse_of_begins (hword.append _) (by decide)
  have hfield : Begins "field " 'f' := by decide
  unfold Segment.read at h
  split at h
  · split_ifs at h
    · unfold readField at h
      split at h
      · next p hp =>
        obtain rfl := Except.error.inj h
        exact not_isVariantUse_of_typeProblem? hp rfl
      · split at h
        · next p hp =>
          obtain rfl := Except.error.inj h
          exact not_isVariantUse_of_begins (begins_of_fieldProblem? hp) (by decide)
        · split_ifs at h
          obtain rfl := Except.error.inj h
          exact not_isVariantUse_of_begins (((hfield.append _).append _).append _) (by decide)
    · exact Except.error.inj h ▸ hmalformed
  · exact Except.error.inj h ▸ hmalformed

/-- A leaf type that is legal apart from the variants has no fault but that it refers to one. -/
theorem LeafUse.isVariantUse_of_fault? {l : LeafUse} {isVariant : String → Bool} {f : Fault}
    (hl : typeProblem? (fun _ => false) l.type = none) (h : l.fault? isVariant = some f) :
    f.IsVariantUse := by
  obtain ⟨p, hp, rfl⟩ := Option.map_eq_some_iff.1 h
  unfold typeProblem? at hl hp
  dsimp only at hl hp
  split_ifs at hl hp
  obtain rfl := Option.some.inj hp
  exact ⟨rfl, _, _, rfl⟩

/-! ## The rounds over a list of declarations -/

/-- The first round over a declaration never reports that a type refers to a variant. -/
theorem not_isVariantUse_of_mem_faults {names : List (Option String)} {i : Nat} {d : Declaration}
    {f : Fault} (h : f ∈ (d.read names i).faults) : ¬f.IsVariantUse := by
  have hword : Begins "expected \"Name : Type field, ...\" in " 'e' := by decide
  unfold Declaration.read at h
  split at h
  · obtain rfl := List.mem_singleton.1 h
    exact not_isVariantUse_of_begins (hword.append _) (by decide)
  · rcases List.mem_append.1 h with h | h
    · exact not_isVariantUse_of_headerFault? (Option.mem_toList.1 h)
    · obtain ⟨r, hr, hf⟩ := List.mem_filterMap.1 h
      obtain ⟨k, names, s, rfl⟩ := exists_read_of_mem hr
      exact not_isVariantUse_of_read (faultOf?_eq_some_iff.1 hf)

/-- The leaf types that the first round of a declaration keeps are legal apart from the variants. -/
theorem typeProblem?_of_mem_leaves {names : List (Option String)} {i : Nat} {d : Declaration}
    {l : LeafUse} (h : l ∈ (d.read names i).leaves) :
    typeProblem? (fun _ => false) l.type = none := by
  unfold Declaration.read at h
  split at h
  · exact absurd h List.not_mem_nil
  · obtain ⟨x, hx, hl⟩ := List.mem_filterMap.1 h
    obtain ⟨r, hr, hx⟩ := List.mem_filterMap.1 hx
    obtain ⟨k, names, s, rfl⟩ := exists_read_of_mem hr
    obtain ⟨type, name, -, -, -, hread⟩ := Segment.read_eq_ok_iff.1 (readingOf?_eq_some_iff.1 hx)
    obtain ⟨htype, -, -, rfl⟩ := readField_eq_ok_iff.1 hread
    dsimp only at hl
    split_ifs at hl
    obtain rfl := Option.some.inj hl
    exact htype

/-- Of faults in groups, where those in the first part of a group never say that a type refers to a
variant and those in the second part always do, the first one of all first parts and then of all
second parts is the first of the groups as they follow one another. -/
theorem isFirstOf_flatMap {α : Type} {first second : α → List Fault} {groups : List α}
    (hfirst : ∀ g ∈ groups, ∀ f ∈ first g, ¬f.IsVariantUse)
    (hsecond : ∀ g ∈ groups, ∀ f ∈ second g, f.IsVariantUse) {e : Fault}
    (he : (groups.flatMap first ++ groups.flatMap second).head? = some e) :
    e.IsFirstOf (groups.flatMap fun g => first g ++ second g) := by
  induction groups with
  | nil => exact absurd he (by simp)
  | cons g groups ih =>
    rw [List.forall_mem_cons] at hfirst hsecond
    rw [List.flatMap_cons]
    cases hg : first g with
    | cons f fs =>
      -- The first group begins with a fault of its first part.
      obtain rfl : f = e := by simpa [hg] using he
      refine ⟨[], fs ++ second g ++ groups.flatMap fun g => first g ++ second g, by simp, by simp,
        ?_⟩
      exact .inl (hfirst.1 f (hg ▸ List.mem_cons_self))
    | nil =>
      simp only [List.flatMap_cons, hg, List.nil_append] at he ⊢
      cases hrest : groups.flatMap first with
      | nil =>
        -- No group has a fault of its first part, so that the second parts are all there is.
        have hsame : (groups.flatMap fun g => first g ++ second g) = groups.flatMap second := by
          rw [List.flatMap_eq_nil_iff] at hrest
          exact List.flatMap_congr fun g hg => by rw [hrest g hg, List.nil_append]
        rw [hrest, List.nil_append] at he
        obtain ⟨after, hafter⟩ := List.head?_eq_some_iff.1 he
        rw [hsame, hafter]
        refine ⟨[], after, rfl, by simp, .inr ⟨rfl, fun f hf => ?_⟩⟩
        rw [← hafter, List.mem_append, List.mem_flatMap] at hf
        rcases hf with hf | ⟨g, hg, hf⟩
        · exact hsecond.1 f hf
        · exact hsecond.2 g hg f hf
      | cons f fs =>
        -- The groups after the first one have the fault, and the second part before them no other.
        obtain rfl : f = e := by simpa [hrest] using he
        obtain ⟨before, after, heq, hbefore, -⟩ := ih hfirst.2 hsecond.2 (by rw [hrest]; rfl)
        refine ⟨second g ++ before, after, by rw [heq, List.append_assoc],
          List.forall_mem_append.2 ⟨hsecond.1, hbefore⟩, .inl ?_⟩
        have hmem : f ∈ groups.flatMap first := hrest ▸ List.mem_cons_self
        obtain ⟨g, hg, hf⟩ := List.mem_flatMap.1 hmem
        exact hfirst.2 g hg f hf

/-- The first fault that the rounds find is the first of those that are reported otherwise. -/
theorem isFirstOf_declarationFaults {decls : List String} {e : Fault}
    (h : (roundFaults decls).head? = some e) : e.IsFirstOf (declarationFaults decls) := by
  have hread : ∀ r ∈ readings decls, ∃ i d, r = Declaration.read (headerNames decls) i d := by
    intro r hr
    obtain ⟨i, hi, rfl⟩ := List.mem_mapIdx.1 hr
    exact ⟨i, _, rfl⟩
  refine isFirstOf_flatMap (fun r hr f hf => ?_) (fun r hr f hf => ?_) h
  · obtain ⟨i, d, rfl⟩ := hread r hr
    exact not_isVariantUse_of_mem_faults hf
  · obtain ⟨i, d, rfl⟩ := hread r hr
    obtain ⟨l, hl, hf⟩ := List.mem_filterMap.1 hf
    exact LeafUse.isVariantUse_of_fault? (typeProblem?_of_mem_leaves hl) hf

/-! ## Stopping and collecting -/

/-- Reading fails with the fault of an empty list, or with the faults of the declarations, of which
there is at least one. -/
theorem parse_eq_error_iff {failFast : Bool} {decls : List String} {faults : List Fault} :
    parse failFast decls = .error faults ↔
      (decls = [] ∧ faults = [noDeclarations]) ∨ (decls ≠ [] ∧ faults ≠ [] ∧
        faults = if failFast then (roundFaults decls).take 1 else declarationFaults decls) := by
  rw [parse_eq]
  dsimp only
  generalize (if failFast then (roundFaults decls).take 1 else declarationFaults decls) = found
  cases decls with
  | nil => simp [eq_comm]
  | cons d decls =>
    cases found with
    | nil => simp
    | cons f found =>
      have hne : faults = f :: found → faults ≠ [] := fun h => h ▸ List.cons_ne_nil f found
      simpa [eq_comm] using hne

/-- Reading with `failFast` gives the same schema, or stops at the first fault. -/
theorem parse_failFast (decls : List String) :
    match parse false decls with
    | .ok s => parse true decls = .ok s
    | .error faults => ∃ e, parse true decls = .error [e] ∧ e.IsFirstOf faults := by
  split
  · next s hs => exact parse_iff.2 (parse_iff.1 hs)
  · next faults hfaults =>
    rcases parse_eq_error_iff.1 hfaults with ⟨hnil, rfl⟩ | ⟨hne, hsome, hall⟩
    · -- The fault of an empty list says nothing of a type.
      refine ⟨noDeclarations, parse_eq_error_iff.2 (.inl ⟨hnil, rfl⟩), [], [], rfl, by simp,
        .inl ?_⟩
      rintro ⟨hcode, -⟩
      exact absurd hcode (by decide)
    · rw [if_neg Bool.false_ne_true] at hall
      cases hround : roundFaults decls with
      | nil => exact absurd (hall.trans (roundFaults_eq_nil_iff.1 hround)) hsome
      | cons e rest =>
        refine ⟨e, parse_eq_error_iff.2 (.inr ⟨hne, by simp, ?_⟩),
          hall ▸ isFirstOf_declarationFaults (by rw [hround, List.head?_cons])⟩
        rw [if_pos rfl, hround, List.take_succ_cons, List.take_zero]

/-- What is reported when reading stops at the first fault is also reported when it does not. -/
theorem mem_reportedFaults_of_parse {failFast : Bool} {decls : List String} {faults : List Fault}
    (h : parse failFast decls = .error faults) {f : Fault} (hf : f ∈ faults) :
    f ∈ reportedFaults decls := by
  cases failFast with
  | false => rwa [reportedFaults, h]
  | true =>
    have hfirst := parse_failFast decls
    cases hall : parse false decls with
    | ok s =>
      rw [hall] at hfirst
      exact absurd (h.symm.trans hfirst) (by simp)
    | error all =>
      rw [hall] at hfirst
      obtain ⟨e, he, before, after, rfl, -⟩ := hfirst
      obtain rfl : faults = [e] := Except.error.inj (h.symm.trans he)
      obtain rfl := List.mem_singleton.1 hf
      rw [reportedFaults, hall]
      exact List.mem_append_right _ List.mem_cons_self

/-- There is one fault when reading with `failFast` fails. -/
theorem length_of_parse_failFast {decls : List String} {faults : List Fault}
    (h : parse true decls = .error faults) : faults.length = 1 := by
  have hfirst := parse_failFast decls
  split at hfirst
  · rw [h] at hfirst
    exact absurd hfirst (by simp)
  · obtain ⟨e, he, -⟩ := hfirst
    obtain rfl : faults = [e] := Except.error.inj (h.symm.trans he)
    rfl

/-- Writing a file as it is never fails for faults of its schema. -/
theorem renderFile_ne_faulty (package : String) (generator : Text.Raw) (imports : List String)
    (exportFields : Bool) (schema? : Option Schema) (faults : List Fault) :
    renderFile package generator imports exportFields schema? ≠ .error (.faulty faults) := by
  unfold renderFile
  split
  · simp
  · split_ifs
    · simp
    · split <;> simp

/-- The faults for which no file is generated are those that the check of the schema reports, unless
there are no variants to check. -/
theorem generateSchema_eq_faulty {o : Options} {schema? : Option Schema} {faults : List Fault}
    (h : generateSchema o schema? = .error (.faulty faults)) :
    ((∀ s ∈ schema?, s.variants = []) ∧ faults = [noVariants]) ∨
      ∃ s ∈ schema?, s.check o.exportFields o.failFast = faults ∧ faults ≠ [] := by
  unfold generateSchema at h
  split at h
  · exact .inl ⟨by simp, by simpa using h.symm⟩
  · next s =>
    dsimp only at h
    generalize (if o.package = "" then defaultPackage else o.package) = package at h
    split_ifs at h with hnone hsome hpackage
    · exact .inl ⟨by simpa using hnone, by simpa using h.symm⟩
    · obtain rfl : s.check o.exportFields o.failFast = faults := by simpa using h
      exact .inr ⟨s, rfl, rfl, by simpa using hsome⟩
    · simp at h
    · exact absurd h (renderFile_ne_faulty _ _ _ _ _ _)

/-- There is one fault when a schema with faults is not generated with `failFast`. -/
theorem length_of_generateSchema_failFast {o : Options} (ho : o.failFast = true)
    {schema? : Option Schema} {faults : List Fault}
    (h : generateSchema o schema? = .error (.faulty faults)) : faults.length = 1 := by
  rcases generateSchema_eq_faulty h with ⟨-, rfl⟩ | ⟨s, -, rfl, hsome⟩
  · rfl
  · -- The check reports no more than its first fault.
    rw [ho, Schema.check, Schema.checkAs_failFast] at hsome ⊢
    have hpos := List.length_pos_of_ne_nil hsome
    rw [List.length_take] at hpos ⊢
    omega

/-- There is one fault when declarations with faults are not generated with `failFast`. -/
theorem length_of_generate_failFast {o : Options} (ho : o.failFast = true) {decls : List String}
    {faults : List Fault} (h : generate o decls = .error (.faulty faults)) : faults.length = 1 := by
  unfold generate at h
  split at h
  · next found hfound =>
    obtain rfl : found = faults := by simpa using h
    exact length_of_parse_failFast (ho ▸ hfound)
  · exact length_of_generateSchema_failFast ho h

/-- Stopping at the first fault. Reading declarations with `failFast` gives the same schema as
reading them without, or it fails when that fails, with one fault: the first of those that are
reported otherwise which does not say that a leaf type refers to a variant, or the very first when
each one says that. A check of a schema that stops reports the first fault of the check that does
not, if there is one. So neither reading nor generating ever fails with more than one fault. -/
theorem failFast_reports_first :
    (∀ decls, match parse false decls with
      | .ok s => parse true decls = .ok s
      | .error faults => ∃ e, parse true decls = .error [e] ∧ e ∈ faults ∧ e.IsFirstOf faults) ∧
    (∀ (s : Schema) exported, s.check exported true = (s.check exported false).head?.toList) ∧
    (∀ (o : Options) decls faults, o.failFast = true →
      parse o.failFast decls = .error faults ∨ generate o decls = .error (.faulty faults) →
        faults.length = 1) ∧
    ∀ (o : Options) schema? faults, o.failFast = true →
      generateSchema o schema? = .error (.faulty faults) → faults.length = 1 := by
  refine ⟨fun decls => ?_, fun s exported => ?_, ?_, ?_⟩
  · have hfirst := parse_failFast decls
    split at hfirst
    · exact hfirst
    · obtain ⟨e, he, before, after, rfl, hfirst⟩ := hfirst
      exact ⟨e, he, by simp, before, after, rfl, hfirst⟩
  · rw [Schema.check, Schema.check, Schema.checkAs_failFast, List.take_one]
  · rintro o decls faults ho (h | h)
    · exact length_of_parse_failFast (ho ▸ h)
    · exact length_of_generate_failFast ho h
  · exact fun o schema? faults ho h => length_of_generateSchema_failFast ho h

/-- The leaf type of the first declaration is reported first, but reading stops at the fault of the
second one, and so does generating. -/
theorem failFast_reports_first_leaf :
    let decls := ["A : B x", "B : Token", "C"]
    let o : Options := { failFast := true }
    ∃ faults e, parse false decls = .error faults ∧
      faults.map (·.place) = [.field 0 0, .field 1 0, .declaration 2] ∧
      parse true decls = .error [e] ∧ e ∈ faults ∧ e.IsFirstOf faults ∧ e.place = .field 1 0 ∧
      ∃ found, generate o decls = .error (.faulty found) ∧ found.length = 1 := by
  intro decls o
  have hplaces : (reportedFaults decls).map (·.place) =
      [.field 0 0, .field 1 0, .declaration 2] := by
    rw [reportedFaults_eq (by simp [decls])]
    decide +kernel
  have hstop : (roundFaults decls).head?.map (·.place) = some (.field 1 0) := by decide +kernel
  have hfirst := failFast_reports_first.1 decls
  unfold reportedFaults at hplaces
  split at hfirst
  · next s hs =>
    rw [hs] at hplaces
    exact absurd hplaces (by simp)
  · next faults hfaults =>
    rw [hfaults] at hplaces
    obtain ⟨e, he, hmem, hfirst⟩ := hfirst
    have hgenerate : generate o decls = .error (.faulty [e]) := by
      rw [generate, show o.failFast = true from rfl, he]
    refine ⟨faults, e, hfaults, hplaces, he, hmem, hfirst, ?_, [e], hgenerate,
      failFast_reports_first.2.2.1 o decls [e] rfl (.inr hgenerate)⟩
    rcases parse_eq_error_iff.1 he with ⟨hnil, -⟩ | ⟨-, -, hlist⟩
    · exact absurd hnil (by simp [decls])
    · -- The fault that reading stops at is the one whose place is computed.
      rw [if_pos rfl, List.take_one] at hlist
      cases hfault : (roundFaults decls).head? with
      | none => simp [hfault] at hlist
      | some f =>
        obtain rfl : e = f := by simpa [hfault] using hlist
        simpa [hfault] using hstop

end NodeFamily
