import NodeFamily.Proofs.ControlCharacters
import NodeFamily.Proofs.FirstFault

/-!
# Messages that stay on their line

The declarations and schemas at fault may hold anything, control characters included, and still the
message about a fault holds none of them in either language (`Fault.IsUnbroken.message`). Most of
what a message repeats is quoted in it. Four places repeat a text as it is, and each comes behind a
check that this text has passed: the base of a type is put into words only if the type is a type
name, the variant of a repeated field only if it has a name, and the identifier that two fields
share only if the field has a name.

The faults of reading declarations and those of checking a schema are gone through site by site
(`isUnbroken_of_parse`, `Schema.isUnbroken_of_mem_faults`).
-/

namespace NodeFamily

open Text (isUnbroken_quote isUnbroken_toString)

/-! ## Problems of names -/

/-- The text that the words for a problem repeat without quotes. -/
def NameProblem.bare? : NameProblem → Option String
  | .typeIsGeneric _ base | .typeIsVariant _ base => some base
  | _ => none

/-- The words for a problem hold no control character when none stands without quotes. -/
theorem NameProblem.isUnbroken_text {p : NameProblem} (h : ∀ s ∈ p.bare?, Text.IsUnbroken s) :
    Text.IsUnbroken p.text := by
  cases p with
  | variantNotName n =>
    have hwords : Text.IsUnbroken "variant name must be a single identifier, got " := by decide
    exact hwords.append (isUnbroken_quote n)
  | variantReserved n =>
    have hwords : Text.IsUnbroken "variant name " := by decide
    exact (hwords.append (isUnbroken_quote n)).append (by decide)
  | fieldNotName n =>
    have hwords : Text.IsUnbroken "field name " := by decide
    exact (hwords.append (isUnbroken_quote n)).append (by decide)
  | fieldRepeatsVariant n =>
    have hwords : Text.IsUnbroken "field name " := by decide
    exact (hwords.append (isUnbroken_quote n)).append (by decide)
  | fieldClashes n =>
    have hwords : Text.IsUnbroken "field " := by decide
    exact (hwords.append (isUnbroken_quote n)).append (by decide)
  | typeNotName t =>
    have hwords : Text.IsUnbroken "invalid type name " := by decide
    exact hwords.append (isUnbroken_quote t)
  | typeIsGeneric t base =>
    have hwords : Text.IsUnbroken "type " := by decide
    have hbase : Text.IsUnbroken base := h base rfl
    exact (((hwords.append (isUnbroken_quote t)).append (by decide)).append hbase).append
      (by decide)
  | typeIsVariant t base =>
    have hwords : Text.IsUnbroken "type " := by decide
    have hbase : Text.IsUnbroken base := h base rfl
    exact (((hwords.append (isUnbroken_quote t)).append (by decide)).append hbase).append
      (by decide)

/-- What is wrong with a type is said without control characters: its base is repeated only if it is
the base of a type name. -/
theorem isUnbroken_of_typeProblem? {isVariant : String → Bool} {t : String} {p : NameProblem}
    (h : typeProblem? isVariant t = some p) : Text.IsUnbroken p.text := by
  refine NameProblem.isUnbroken_text fun s hs => ?_
  unfold typeProblem? at h
  dsimp only at h
  split_ifs at h with hnode hname hgeneric hvariant
  all_goals obtain rfl := Option.some.inj h
  · exact absurd hs (by simp [NameProblem.bare?])
  all_goals
    obtain rfl := Option.some.inj hs
    exact isUnbroken_typeBase (by simpa using hname)

/-- What is wrong with a variant name is said without control characters. -/
theorem isUnbroken_of_variantProblem? {n : String} {p : NameProblem}
    (h : variantProblem? n = some p) : Text.IsUnbroken p.text := by
  refine NameProblem.isUnbroken_text ?_
  unfold variantProblem? at h
  split_ifs at h
  all_goals
    obtain rfl := Option.some.inj h
    simp [NameProblem.bare?]

/-- What is wrong with a field name is said without control characters. -/
theorem isUnbroken_of_fieldProblem? {n ident variant : String} {p : NameProblem}
    (h : fieldProblem? n ident variant = some p) : Text.IsUnbroken p.text := by
  refine NameProblem.isUnbroken_text ?_
  unfold fieldProblem? at h
  split_ifs at h
  all_goals
    obtain rfl := Option.some.inj h
    simp [NameProblem.bare?]

/-! ## Faults -/

/-- A fault that is shown without control characters: its code is one of this library, and its
detail holds none. -/
structure Fault.IsUnbroken (f : Fault) : Prop where
  /-- The code has words in every language. -/
  known : f.code ∈ Code.known
  /-- The detail holds no control character. -/
  detail : Text.IsUnbroken f.detail

/-- A fault is such a one by its code and its detail alone. -/
theorem Fault.isUnbroken_mk {code : Code} (hcode : code ∈ Code.known) {detail : String}
    (hdetail : Text.IsUnbroken detail) {place : Place} {column? : Option Nat} {text : String} :
    Fault.IsUnbroken ⟨code, place, column?, text, detail⟩ :=
  ⟨hcode, hdetail⟩

/-- A place is shown by numbers and slashes. -/
theorem Place.isUnbroken_path (p : Place) : Text.IsUnbroken p.path := by
  have hslash : Text.IsUnbroken "/" := by decide
  have hfields : Text.IsUnbroken "/fields/" := by decide
  cases p with
  | schema => exact hslash
  | declaration i => exact hslash.append (isUnbroken_toString i)
  | field i j =>
    exact ((hslash.append (isUnbroken_toString i)).append hfields).append (isUnbroken_toString j)

/-- The message about such a fault holds no control character in either language. -/
theorem Fault.IsUnbroken.message {f : Fault} (h : f.IsUnbroken) (l : Language) :
    Text.IsUnbroken (f.message (.dictionary l)) := by
  have hwords : Text.IsUnbroken (l.words f.code) := by
    have hall : ∀ c ∈ Code.known, Text.IsUnbroken (l.words c) := by
      cases l <;> decide
    exact hall f.code h.known
  have hat : Text.IsUnbroken " at " := by decide
  have hcolumn : Text.IsUnbroken " (column " := by decide
  have hcolon : Text.IsUnbroken ": " := by decide
  unfold Fault.message
  refine (((hwords.append hat).append f.place.isUnbroken_path).append ?_).append ?_
  · split
    · next n _ => exact (hcolumn.append (isUnbroken_toString n)).append (by decide)
    · decide
  · split_ifs
    · decide
    · exact hcolon.append h.detail

/-! ## Reading declarations -/

section Reading

variable {place : Place} {variant text : String} {earlier : List String} {f : Fault}

/-- The fault of a segment of two words is shown without control characters in a variant with a
name, which is what a repeated field name is reported with. -/
theorem isUnbroken_of_readField (hvariant : Text.IsUnbroken variant) {type name : Token}
    (h : readField place variant earlier text type name = .error f) : f.IsUnbroken := by
  unfold readField at h
  split at h
  · next p hp =>
    obtain rfl := Except.error.inj h
    exact Fault.isUnbroken_mk (by decide) (isUnbroken_of_typeProblem? hp)
  split at h
  · next p hp =>
    obtain rfl := Except.error.inj h
    exact Fault.isUnbroken_mk (by decide) (isUnbroken_of_fieldProblem? hp)
  split_ifs at h
  obtain rfl := Except.error.inj h
  have hfield : Text.IsUnbroken "field " := by decide
  exact Fault.isUnbroken_mk (by decide)
    (((hfield.append (isUnbroken_quote name.text)).append (by decide)).append hvariant)

/-- The fault of a segment is shown without control characters in a variant with a name. -/
theorem isUnbroken_of_read (hvariant : Text.IsUnbroken variant) {s : Segment}
    (h : s.read place variant earlier = .error f) : f.IsUnbroken := by
  have hmalformed : (s.malformed place).IsUnbroken := by
    have hwords : Text.IsUnbroken "expected \"Type name\", got " := by decide
    exact Fault.isUnbroken_mk (by decide) (hwords.append (isUnbroken_quote s.text))
  unfold Segment.read at h
  split at h
  · split_ifs at h
    · exact isUnbroken_of_readField hvariant h
    · exact Except.error.inj h ▸ hmalformed
  · exact Except.error.inj h ▸ hmalformed

/-- The fault of a header is shown without control characters. -/
theorem isUnbroken_of_headerFault? {names : List (Option String)} {i : Nat} {d : Declaration}
    {head : List Token} {colon : Token} (h : d.headerFault? names i head colon = some f) :
    f.IsUnbroken := by
  have hsingle (t : Token) : (d.notSingle i head t).IsUnbroken := by
    have hwords : Text.IsUnbroken "variant name must be a single identifier, got " := by decide
    exact Fault.isUnbroken_mk (by decide) (hwords.append (isUnbroken_quote _))
  unfold Declaration.headerFault? at h
  split at h
  · obtain rfl := Option.some.inj h
    exact Fault.isUnbroken_mk (by decide) (by decide)
  · split_ifs at h
    · exact Option.some.inj h ▸ hsingle _
    split at h
    · next p hp =>
      obtain rfl := Option.some.inj h
      exact Fault.isUnbroken_mk (by decide) (isUnbroken_of_variantProblem? hp)
    · dsimp only at h
      split_ifs at h
      obtain rfl := Option.some.inj h
      exact Fault.isUnbroken_mk (by decide)
        (((isUnbroken_quote _).append (by decide)).append (isUnbroken_toString _))
  · exact Option.some.inj h ▸ hsingle _

/-- The fault of a leaf type is shown without control characters. -/
theorem LeafUse.isUnbroken_of_fault? {leaf : LeafUse} {isVariant : String → Bool}
    (h : leaf.fault? isVariant = some f) : f.IsUnbroken := by
  obtain ⟨p, hp, rfl⟩ := Option.map_eq_some_iff.1 h
  exact Fault.isUnbroken_mk (by decide) (isUnbroken_of_typeProblem? hp)

/-- The name that fields are read with holds no control character: it is a legal variant name, or
nothing where the header is at fault. -/
theorem Declaration.isUnbroken_name? (d : Declaration) : Text.IsUnbroken (d.name?.getD "") := by
  have hempty : Text.IsUnbroken "" := by decide
  unfold Declaration.name?
  split
  · split_ifs with hlegal
    · have hnone := Option.isNone_iff_eq_none.1 hlegal.2
      exact isUnbroken_of_isName (variantProblem?_eq_none_iff.1 hnone).1
    · exact hempty
  · exact hempty

/-- The faults that the first round finds in a declaration are shown without control characters. -/
theorem isUnbroken_of_mem_faults {names : List (Option String)} {i : Nat} {d : Declaration}
    (h : f ∈ (d.read names i).faults) : f.IsUnbroken := by
  unfold Declaration.read at h
  split at h
  · obtain rfl := List.mem_singleton.1 h
    have hwords : Text.IsUnbroken "expected \"Name : Type field, ...\" in " := by decide
    exact Fault.isUnbroken_mk (by decide) (hwords.append (isUnbroken_quote d.text))
  · rcases List.mem_append.1 h with h | h
    · exact isUnbroken_of_headerFault? (Option.mem_toList.1 h)
    · obtain ⟨r, hr, hf⟩ := List.mem_filterMap.1 h
      obtain ⟨place, names, s, rfl⟩ := exists_read_of_mem hr
      exact isUnbroken_of_read d.isUnbroken_name? (faultOf?_eq_some_iff.1 hf)

/-- The faults of reading declarations are shown without control characters. -/
theorem isUnbroken_of_parse {failFast : Bool} {decls : List String} {faults : List Fault}
    (h : parse failFast decls = .error faults) (hf : f ∈ faults) : f.IsUnbroken := by
  rcases parse_eq_error_iff.1 h with ⟨-, rfl⟩ | ⟨hne, -, -⟩
  · obtain rfl := List.mem_singleton.1 hf
    exact Fault.isUnbroken_mk (by decide) (by decide)
  · obtain ⟨i, d, -, hmem⟩ := (mem_reportedFaults_iff hne).1 (mem_reportedFaults_of_parse h hf)
    rcases List.mem_append.1 hmem with hmem | hmem
    · exact isUnbroken_of_mem_faults hmem
    · obtain ⟨leaf, -, hleaf⟩ := List.mem_filterMap.1 hmem
      exact leaf.isUnbroken_of_fault? hleaf

end Reading

/-! ## Checking a schema -/

section Checking

variable {f : Fault}

/-- The fault of a variant name is shown without control characters. -/
theorem Schema.isUnbroken_of_variantFault? {s : Schema} {i : Nat} {v : Variant}
    (h : s.variantFault? i v = some f) : f.IsUnbroken := by
  unfold Schema.variantFault? at h
  split at h
  · next p hp =>
    obtain rfl := Option.some.inj h
    exact Fault.isUnbroken_mk (by decide) (isUnbroken_of_variantProblem? hp)
  · dsimp only at h
    split_ifs at h
    obtain rfl := Option.some.inj h
    exact Fault.isUnbroken_mk (by decide)
      (((isUnbroken_quote _).append (by decide)).append (isUnbroken_toString _))

variable {isVariant : String → Bool} {exported : Bool} {variant : String}
variable {earlier : List (String × String)}

/-- The fault of a field is shown without control characters. The identifier that it shares with
another one is repeated only if the field has a name. -/
theorem isUnbroken_of_fieldFault? {place : Place} {x : Field}
    (h : fieldFault? isVariant place variant earlier (fieldIdent exported x.name) x = some f) :
    f.IsUnbroken := by
  unfold fieldFault? at h
  dsimp only at h
  split at h
  · next p hp =>
    obtain rfl := Option.some.inj h
    exact Fault.isUnbroken_mk (by decide) (isUnbroken_of_typeProblem? hp)
  split at h
  · next p hp =>
    obtain rfl := Option.some.inj h
    exact Fault.isUnbroken_mk (by decide) (isUnbroken_of_fieldProblem? hp)
  · next hnone =>
    split at h
    · next other _ =>
      obtain rfl := Option.some.inj h
      have hname := (fieldProblem?_eq_none_iff.1 hnone).1
      have hwords : Text.IsUnbroken "fields " := by decide
      have hquoted := ((hwords.append (isUnbroken_quote other)).append
        (by decide : Text.IsUnbroken " and ")).append (isUnbroken_quote x.name)
      exact Fault.isUnbroken_mk (by decide)
        ((hquoted.append (by decide)).append (isUnbroken_fieldIdent hname exported))
    · simp at h

/-- The faults of fields are shown without control characters. -/
theorem isUnbroken_of_mem_fieldFaults {i j : Nat} {fields : List Field}
    (h : f ∈ fieldFaults isVariant (fieldIdent exported) i variant earlier j fields) : f.IsUnbroken := by
  induction fields generalizing earlier j with
  | nil => exact absurd h List.not_mem_nil
  | cons x fields ih =>
    rw [fieldFaults] at h
    split at h
    · next fault hfault =>
      rcases List.mem_cons.1 h with rfl | h
      · exact isUnbroken_of_fieldFault? hfault
      · exact ih h
    · exact ih h

/-- The faults of a schema are shown without control characters, whatever its texts hold. -/
theorem Schema.isUnbroken_of_mem_faults {s : Schema} (h : f ∈ s.faults exported) :
    f.IsUnbroken := by
  rw [Schema.faults, Schema.check, Schema.checkAs_eq] at h
  rcases List.mem_append.1 h with h | h
  · obtain ⟨found, hfound, hf⟩ := List.mem_flatten.1 h
    obtain ⟨i, hi, rfl⟩ := List.mem_mapIdx.1 hfound
    exact s.isUnbroken_of_variantFault? (Option.mem_toList.1 hf)
  · obtain ⟨found, hfound, hf⟩ := List.mem_flatten.1 h
    obtain ⟨i, hi, rfl⟩ := List.mem_mapIdx.1 hfound
    exact isUnbroken_of_mem_fieldFaults hf

/-- The faults for which a schema is refused are shown without control characters. -/
theorem isUnbroken_of_generateSchema {o : Options} {schema? : Option Schema} {faults : List Fault}
    (h : generateSchema o schema? = .error (.faulty faults)) (hf : f ∈ faults) : f.IsUnbroken := by
  rcases generateSchema_eq_faulty h with ⟨-, rfl⟩ | ⟨s, -, rfl, -⟩
  · obtain rfl := List.mem_singleton.1 hf
    exact Fault.isUnbroken_mk (by decide) (by decide)
  · exact Schema.isUnbroken_of_mem_faults ((s.check_sublist _ _).subset hf)

/-- The faults for which nothing is generated from declarations are shown without control
characters, and there is one at least. -/
theorem isUnbroken_of_generate {o : Options} {decls : List String} {faults : List Fault}
    (h : generate o decls = .error (.faulty faults)) :
    faults ≠ [] ∧ ∀ f ∈ faults, f.IsUnbroken := by
  unfold generate at h
  split at h
  · next found hparse =>
    obtain rfl : found = faults := by simpa using h
    refine ⟨?_, fun f hf => isUnbroken_of_parse hparse hf⟩
    rcases parse_eq_error_iff.1 hparse with ⟨-, rfl⟩ | ⟨-, hne, -⟩
    · exact List.cons_ne_nil _ _
    · exact hne
  · refine ⟨?_, fun f hf => isUnbroken_of_generateSchema h hf⟩
    rcases generateSchema_eq_faulty h with ⟨-, rfl⟩ | ⟨s, -, -, hne⟩
    · exact List.cons_ne_nil _ _
    · exact hne

end Checking

end NodeFamily
