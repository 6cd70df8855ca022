import NodeFamily.Proofs.Rounds

/-!
# Declarations read one by one

`Declaration.read` says what the first round finds in one declaration, given the header names of
all of them, and `readings` are those of a list. Without `failFast` the rounds come to all these
readings together (`Progress.adds_ofDeclarations`), so that the faults are those of the first round
and then those of the second. Sorted by declaration they are the faults of one declaration after
another, those of each in the order of the rounds (`mergeSort_rounds`): both lists are sorted, and
have the same faults of each declaration in the same order. `parse_eq` puts this together with what
`failFast` changes.
-/

namespace NodeFamily

/-- What the first round finds in one declaration. -/
structure Reading where
  /-- The variant, without the fields at fault; its name is empty when the header is illegal. -/
  variant : Variant
  /-- The faults: that of the header first, then those of the segments in order. -/
  faults : List Fault
  /-- The uses of leaf types in order. -/
  leaves : List LeafUse
deriving DecidableEq, Repr

/-- Reads the segments of declaration `i` from segment `j` on. -/
def readSegments (i : Nat) (variant : String) (earlier : List String) (j : Nat) :
    List Segment → List (Except Fault FieldReading)
  | [] => []
  | s :: rest =>
    let r := s.read (.field i j) variant earlier
    let earlier := match r with
      | .ok f => f.field.name :: earlier
      | .error _ => earlier
    r :: readSegments i variant earlier (j + 1) rest

/-- The fault of a result, if it is one. -/
def faultOf? : Except Fault FieldReading → Option Fault
  | .error f => some f
  | .ok _ => none

/-- The reading of a result, if it is one. -/
def readingOf? : Except Fault FieldReading → Option FieldReading
  | .error _ => none
  | .ok r => some r

/-- Checks declaration `i` on its own, where `names` are the legal header names of all declarations
in order. -/
def Declaration.read (names : List (Option String)) (i : Nat) (d : Declaration) : Reading :=
  match d.parts? with
  | none => { variant := ⟨"", []⟩, faults := [d.missingSeparator i], leaves := [] }
  | some (head, colon, segments) =>
    let name := d.name?.getD ""
    let results := readSegments i name [] 0 segments
    let fields := results.filterMap readingOf?
    { variant := ⟨name, fields.map (·.field)⟩
      faults := (d.headerFault? names i head colon).toList ++ results.filterMap faultOf?
      leaves := fields.filterMap (·.leaf?) }

/-- The legal header names of declarations in order. -/
def headerNames (decls : List String) : List (Option String) :=
  decls.map fun d => (Declaration.ofString d).name?

/-- Whether a declaration of the list has a legal header with the given name. -/
def declares (decls : List String) (n : String) : Bool := (headerNames decls).contains (some n)

/-- The readings of declarations, each by itself. -/
def readings (decls : List String) : List Reading :=
  decls.mapIdx fun i d => (Declaration.ofString d).read (headerNames decls) i

/-- What the second round reports of a reading. -/
def Reading.leafFaults (isVariant : String → Bool) (r : Reading) : List Fault :=
  r.leaves.filterMap (·.fault? isVariant)

/-- The faults of a list of declarations as the rounds find them. -/
def roundFaults (decls : List String) : List Fault :=
  (readings decls).flatMap Reading.faults ++
    (readings decls).flatMap (Reading.leafFaults (declares decls))

/-- The faults of a list of declarations, declaration by declaration: those of the first round
before those of the second. -/
def declarationFaults (decls : List String) : List Fault :=
  (readings decls).flatMap fun r => r.faults ++ r.leafFaults (declares decls)

/-! ## The results of segments -/

/-- A result has a fault exactly when it is that fault. -/
theorem faultOf?_eq_some_iff {r : Except Fault FieldReading} {f : Fault} :
    faultOf? r = some f ↔ r = .error f := by
  cases r <;> simp [faultOf?]

/-- A result has a reading exactly when it is that reading. -/
theorem readingOf?_eq_some_iff {r : Except Fault FieldReading} {x : FieldReading} :
    readingOf? r = some x ↔ r = .ok x := by
  cases r <;> simp [readingOf?]

/-- The names that are taken after a segment was read. -/
def namesAfter (earlier : List String) : Except Fault FieldReading → List String
  | .ok r => r.field.name :: earlier
  | .error _ => earlier

/-- The first segment is read with the names taken so far, and the others with its own name too. -/
theorem readSegments_cons (i : Nat) (variant : String) (earlier : List String) (j : Nat)
    (s : Segment) (segments : List Segment) :
    readSegments i variant earlier j (s :: segments) =
      s.read (.field i j) variant earlier ::
        readSegments i variant (namesAfter earlier (s.read (.field i j) variant earlier)) (j + 1)
          segments := by
  rw [readSegments]
  rfl

/-- Each result is that of reading some segment at the place with its index. -/
theorem exists_read_of_getElem? {i : Nat} {variant : String} {earlier : List String} {j : Nat}
    {segments : List Segment} {k : Nat} {r : Except Fault FieldReading}
    (h : (readSegments i variant earlier j segments)[k]? = some r) :
    ∃ names s, Segment.read (.field i (j + k)) variant names s = r := by
  induction segments generalizing earlier j k with
  | nil => simp [readSegments] at h
  | cons s segments ih =>
    rw [readSegments_cons] at h
    cases k with
    | zero => exact ⟨earlier, s, Option.some.inj h⟩
    | succ k =>
      obtain ⟨names, t, hread⟩ := ih h
      exact ⟨names, t, by rw [← hread, Nat.add_right_comm, Nat.add_assoc]⟩

/-- Each result is that of reading some segment of the declaration. -/
theorem exists_read_of_mem {i : Nat} {variant : String} {earlier : List String} {j : Nat}
    {segments : List Segment} {r : Except Fault FieldReading}
    (h : r ∈ readSegments i variant earlier j segments) :
    ∃ k names s, Segment.read (.field i k) variant names s = r := by
  obtain ⟨k, hk⟩ := List.mem_iff_getElem?.1 h
  exact ⟨j + k, exists_read_of_getElem? hk⟩

/-- Two words are read at the place that they are read for. -/
theorem place_of_readField {place : Place} {variant : String} {earlier : List String}
    {text : String} {type name : Token} {r : Except Fault FieldReading}
    (h : readField place variant earlier text type name = r) :
    (∀ f, r = .error f → f.place = place) ∧ ∀ x, r = .ok x → ∀ l ∈ x.leaf?, l.place = place := by
  subst h
  unfold readField
  split
  · simp [eq_comm]
  · split
    · simp [eq_comm]
    · split_ifs
      all_goals simp [eq_comm]

/-- A segment is read at the place that it is read for. -/
theorem place_of_read (place : Place) (variant : String) (earlier : List String) (s : Segment) :
    (∀ f, s.read place variant earlier = .error f → f.place = place) ∧
      ∀ x, s.read place variant earlier = .ok x → ∀ l ∈ x.leaf?, l.place = place := by
  unfold Segment.read
  split
  · next type name hwords =>
    split_ifs
    · exact place_of_readField rfl
    · simp [Segment.malformed, eq_comm]
  · simp [Segment.malformed, eq_comm]

/-- A header is at fault at the place of its declaration. -/
theorem place_of_headerFault? {names : List (Option String)} {i : Nat} {d : Declaration}
    {head : List Token} {colon : Token} {f : Fault}
    (h : d.headerFault? names i head colon = some f) : f.place = .declaration i := by
  unfold Declaration.headerFault? at h
  split at h
  · obtain rfl := Option.some.inj h
    rfl
  · split_ifs at h
    · obtain rfl := Option.some.inj h
      rfl
    · split at h
      · obtain rfl := Option.some.inj h
        rfl
      · dsimp only at h
        split_ifs at h
        obtain rfl := Option.some.inj h
        rfl
  · obtain rfl := Option.some.inj h
    rfl

/-- What the first round reports of a declaration is about this declaration. -/
theorem Declaration.decl?_of_mem_faults {names : List (Option String)} {i : Nat} {d : Declaration}
    {f : Fault} (h : f ∈ (d.read names i).faults) : f.place.decl? = some i := by
  unfold read at h
  split at h
  · rw [List.mem_singleton.1 h]
    rfl
  · rcases List.mem_append.1 h with h | h
    · rw [place_of_headerFault? (Option.mem_toList.1 h)]
      rfl
    · obtain ⟨r, hr, hf⟩ := List.mem_filterMap.1 h
      obtain ⟨k, names, s, hread⟩ := exists_read_of_mem hr
      rw [(place_of_read _ _ _ _).1 f (hread.trans (faultOf?_eq_some_iff.1 hf))]
      rfl

/-- What the second round reports of a declaration is about this declaration. -/
theorem Declaration.decl?_of_mem_leafFaults {names : List (Option String)} {i : Nat}
    {d : Declaration} {isVariant : String → Bool} {f : Fault}
    (h : f ∈ (d.read names i).leafFaults isVariant) : f.place.decl? = some i := by
  obtain ⟨l, hl, hf⟩ := List.mem_filterMap.1 h
  obtain ⟨p, -, rfl⟩ := Option.map_eq_some_iff.1 hf
  dsimp only
  unfold read at hl
  split at hl
  · exact absurd hl List.not_mem_nil
  · obtain ⟨x, hx, hleaf⟩ := List.mem_filterMap.1 hl
    obtain ⟨r, hr, hx⟩ := List.mem_filterMap.1 hx
    obtain ⟨k, names, s, hread⟩ := exists_read_of_mem hr
    rw [(place_of_read _ _ _ _).2 x (hread.trans (readingOf?_eq_some_iff.1 hx)) l hleaf]
    rfl

/-! ## What the rounds come to -/

/-- Reading segments one after another adds their faults and leaf types, and their fields when none
of them is at fault. -/
theorem FieldProgress.foldl_add (i : Nat) (variant : String) (p : FieldProgress) (j : Nat)
    (segments : List Segment) :
    let results := readSegments i variant p.earlier j segments
    let q := (segments.zipIdx j).foldl (FieldProgress.add i variant) p
    q.progress.names = p.progress.names ∧ q.progress.variants = p.progress.variants ∧
      q.progress.found = p.progress.found ++ results.filterMap faultOf? ∧
      q.progress.leaves =
        p.progress.leaves ++ (results.filterMap readingOf?).filterMap (·.leaf?) ∧
      (results.filterMap faultOf? = [] →
        q.fields? = p.fields?.map (· ++ (results.filterMap readingOf?).map (·.field))) := by
  induction segments generalizing p j with
  | nil => simp [readSegments]
  | cons s segments ih =>
    obtain ⟨hnames, hvariants, hfound, hleaves, hfields⟩ := ih (p.add i variant (s, j)) (j + 1)
    rw [List.zipIdx_cons, List.foldl_cons, readSegments_cons]
    dsimp only
    rw [hnames, hvariants, hfound, hleaves]
    cases hread : s.read (.field i j) variant p.earlier with
    | error f =>
      have hadd : p.add i variant (s, j) = p.refuse f := by rw [add, hread]
      rw [hadd]
      refine ⟨rfl, rfl, ?_, rfl, fun hnone => absurd hnone (by simp [faultOf?])⟩
      simp [refuse, Progress.report, namesAfter, faultOf?]
    | ok r =>
      have hadd : p.add i variant (s, j) = p.accept r := by rw [add, hread]
      rw [hadd] at hfields ⊢
      refine ⟨rfl, rfl, rfl, ?_, fun hnone => ?_⟩
      · cases hleaf : r.leaf? <;> simp [accept, namesAfter, readingOf?, hleaf]
      · rw [hfields (by simpa [accept, namesAfter, faultOf?] using hnone), accept, Option.map_map]
        congr 1
        funext fields
        simp [namesAfter, readingOf?]

namespace Progress

/-- Progress and what readings add to it; the variants are told when no reading has a fault. -/
structure Adds (p : Progress) (rs : List Reading) (q : Progress) : Prop where
  /-- The faults. -/
  found : q.found = p.found ++ rs.flatMap Reading.faults
  /-- The uses of leaf types. -/
  leaves : q.leaves = p.leaves ++ rs.flatMap Reading.leaves
  /-- The variants. -/
  variants : (∀ r ∈ rs, r.faults = []) → q.variants = p.variants ++ rs.map Reading.variant

/-- Some readings and then others are all of them. -/
theorem Adds.trans {p q s : Progress} {rs rs' : List Reading} (h : p.Adds rs q)
    (h' : q.Adds rs' s) : p.Adds (rs ++ rs') s where
  found := by rw [h'.found, h.found, List.flatMap_append, List.append_assoc]
  leaves := by rw [h'.leaves, h.leaves, List.flatMap_append, List.append_assoc]
  variants hnone := by
    rw [List.forall_mem_append] at hnone
    rw [h'.variants hnone.2, h.variants hnone.1, List.map_append, List.append_assoc]

end Progress

/-- A header is checked against the names before it only. -/
theorem Declaration.headerFault?_append (d : Declaration) (head : List Token) (colon : Token)
    (names rest : List (Option String)) :
    d.headerFault? (names ++ rest) names.length head colon =
      d.headerFault? names names.length head colon := by
  have hfirst : ∀ n : String, (names ++ rest).idxOf (some n) < names.length ↔
      names.idxOf (some n) < names.length := by
    intro n
    rw [List.idxOf_lt_length_iff, List.idxOf_append]
    split_ifs with hmem
    · exact iff_of_true (List.idxOf_lt_length_iff.2 hmem) hmem
    · exact iff_of_false (by omega) hmem
  unfold headerFault?
  split
  · rfl
  · next t =>
    split_ifs
    · rfl
    · split
      · rfl
      · dsimp only
        by_cases hlt : names.idxOf (some t.text) < names.length
        · rw [if_pos hlt, if_pos ((hfirst _).2 hlt),
            List.idxOf_append_of_mem (List.idxOf_lt_length_iff.1 hlt)]
        · rw [if_neg hlt, if_neg (mt (hfirst _).1 hlt)]
  · rfl

namespace Progress

/-- Reading one more declaration adds its reading. -/
theorem adds_add (p : Progress) (d : Declaration) (rest : List (Option String)) :
    (p.add false (d, p.names.length)).names = p.names ++ [d.name?] ∧
      p.Adds [d.read (p.names ++ rest) p.names.length] (p.add false (d, p.names.length)) := by
  unfold add Declaration.read
  dsimp only
  cases d.parts? with
  | none => exact ⟨rfl, by simp [report], by simp [report], by simp⟩
  | some parts =>
    obtain ⟨head, colon, segments⟩ := parts
    dsimp only
    rw [stops_false, if_neg Bool.false_ne_true, d.headerFault?_append]
    generalize hheader : d.headerFault? p.names p.names.length head colon = header?
    generalize hq : ({ p with names := p.names ++ [d.name?] }.reportAny header?) = q
    obtain ⟨hnames, hvariants, hfound, hleaves⟩ : q.names = p.names ++ [d.name?] ∧
        q.variants = p.variants ∧ q.found = p.found ++ header?.toList ∧ q.leaves = p.leaves := by
      subst hq
      cases header? with
      | none => exact ⟨rfl, rfl, (List.append_nil _).symm, rfl⟩
      | some f => exact ⟨rfl, rfl, rfl, rfl⟩
    obtain ⟨hnames', hvariants', hfound', hleaves', hfields⟩ :=
      FieldProgress.foldl_add p.names.length (d.name?.getD "") { progress := q } 0 segments
    rw [← inTurn_false (fun q => q.progress.found)] at hnames' hvariants' hfound' hleaves' hfields
    refine ⟨?_, ?_, ?_, ?_⟩
    · unfold readFields
      dsimp only
      split <;> exact hnames'.trans hnames
    · rw [found_readFields, hfound', hfound]
      simp
    · unfold readFields
      dsimp only
      split <;> simp [hleaves', hleaves]
    · -- A reading without fault has a header without fault, and all its fields.
      intro hnone
      obtain ⟨hheader, hresults⟩ := List.append_eq_nil_iff.1 (hnone _ (List.mem_singleton_self _))
      rw [Option.toList_eq_nil_iff] at hheader
      subst hheader
      unfold readFields
      dsimp only
      rw [hfields hresults]
      simp [hvariants', hvariants]

/-- Reading declarations after others adds their readings. -/
theorem adds_foldl (p : Progress) (ds : List Declaration) :
    ((ds.zipIdx p.names.length).foldl (add false) p).names = p.names ++ ds.map Declaration.name? ∧
      p.Adds ((ds.zipIdx p.names.length).map fun item =>
          item.1.read (p.names ++ ds.map Declaration.name?) item.2)
        ((ds.zipIdx p.names.length).foldl (add false) p) := by
  induction ds generalizing p with
  | nil => exact ⟨(List.append_nil _).symm, by simp, by simp, by simp⟩
  | cons d ds ih =>
    obtain ⟨hnames, hadds⟩ := p.adds_add d ((d :: ds).map Declaration.name?)
    obtain ⟨hrest, hmore⟩ := ih (p.add false (d, p.names.length))
    rw [hnames, List.append_assoc] at hrest hmore
    rw [List.length_append, List.length_singleton] at hrest hmore
    rw [List.zipIdx_cons, List.foldl_cons, List.map_cons, List.map_cons]
    exact ⟨hrest, hadds.trans hmore⟩

/-- Reading all declarations comes to their readings. -/
theorem adds_readAll (decls : List String) :
    (readAll false (decls.map Declaration.ofString)).names = headerNames decls ∧
      Adds {} (readings decls) (readAll false (decls.map Declaration.ofString)) := by
  obtain ⟨hnames, hadds⟩ := adds_foldl {} (decls.map Declaration.ofString)
  have hheaders : (decls.map Declaration.ofString).map Declaration.name? = headerNames decls := by
    rw [List.map_map]
    rfl
  have hreadings : (((decls.map Declaration.ofString).zipIdx).map fun item =>
      item.1.read (headerNames decls) item.2) = readings decls := by
    rw [readings, List.mapIdx_eq_zipIdx_map, List.zipIdx_map, List.map_map]
    rfl
  rw [hheaders] at hnames hadds
  rw [readAll, inTurn_false]
  exact ⟨hnames, hreadings ▸ hadds⟩

/-- The second round adds the faults of leaf types and changes nothing else. -/
theorem foldl_addLeaf (p : Progress) (ls : List LeafUse) :
    ls.foldl addLeaf p = { p with
      found := p.found ++ ls.filterMap (·.fault? fun n => p.names.contains (some n)) } := by
  induction ls generalizing p with
  | nil => simp
  | cons l ls ih =>
    rw [List.foldl_cons, ih, List.filterMap_cons, addLeaf]
    cases l.fault? fun n => p.names.contains (some n) with
    | none => rfl
    | some f => exact congrArg (fun found => { p with found }) (List.append_assoc _ _ _)

/-- Both rounds find what they find in each declaration, and read all variants when that is
nothing. -/
theorem found_ofDeclarations (decls : List String) :
    (ofDeclarations false (decls.map Declaration.ofString)).found = roundFaults decls ∧
      (roundFaults decls = [] →
        (ofDeclarations false (decls.map Declaration.ofString)).variants =
          (readings decls).map Reading.variant) := by
  obtain ⟨hnames, hadds⟩ := adds_readAll decls
  unfold ofDeclarations checkLeaves
  dsimp only
  rw [stops_false, if_neg Bool.false_ne_true, inTurn_false, foldl_addLeaf, hnames, hadds.found,
    hadds.leaves]
  refine ⟨?_, fun hnone => ?_⟩
  · simp only [List.nil_append, List.filterMap_flatMap]
    rfl
  · dsimp only
    rw [hadds.variants, List.nil_append]
    exact List.flatMap_eq_nil_iff.1 (List.append_eq_nil_iff.1 hnone).1

end Progress

/-! ## Sorting by declaration -/

/-- The order by declarations is a total one. -/
theorem Fault.isNoLater_total (f g : Fault) : (f.isNoLater g || g.isNoLater f) = true := by
  unfold isNoLater
  cases f.place.decl? with
  | none => rfl
  | some i =>
    cases g.place.decl? with
    | none => rfl
    | some k => simp only [Bool.or_eq_true, decide_eq_true_eq]; omega

/-- The order by declarations is transitive. -/
theorem Fault.isNoLater_trans (f g h : Fault) (hfg : f.isNoLater g = true)
    (hgh : g.isNoLater h = true) : f.isNoLater h = true := by
  unfold isNoLater at *
  cases hf : f.place.decl? with
  | none => rfl
  | some i =>
    cases hg : g.place.decl? with
    | none => simp [hf, hg] at hfg
    | some k =>
      cases hh : h.place.decl? with
      | none => simp [hg, hh] at hgh
      | some m =>
        simp only [hf, hg, hh, decide_eq_true_eq] at hfg hgh ⊢
        omega

/-- Faults that come no later than each other are of one declaration. -/
theorem Fault.decl?_eq_of_isNoLater {f g : Fault} (hfg : f.isNoLater g = true)
    (hgf : g.isNoLater f = true) : f.place.decl? = g.place.decl? := by
  unfold isNoLater at *
  cases hf : f.place.decl? with
  | none =>
    cases hg : g.place.decl? with
    | none => rfl
    | some k => simp [hf, hg] at hgf
  | some i =>
    cases hg : g.place.decl? with
    | none => simp [hf, hg] at hfg
    | some k =>
      simp only [hf, hg, decide_eq_true_eq] at hfg hgf
      rw [Nat.le_antisymm hfg hgf]

/-- The faults of one declaration. -/
def ofDecl (decl? : Option Nat) (faults : List Fault) : List Fault :=
  faults.filter (·.place.decl? = decl?)

/-- A fault is among those of its declaration. -/
theorem mem_ofDecl_iff {decl? : Option Nat} {faults : List Fault} {f : Fault} :
    f ∈ ofDecl decl? faults ↔ f ∈ faults ∧ f.place.decl? = decl? := by
  simp [ofDecl]

/-- The first fault is among those of its own declaration only. -/
theorem ofDecl_cons (decl? : Option Nat) (f : Fault) (faults : List Fault) :
    ofDecl decl? (f :: faults) =
      if f.place.decl? = decl? then f :: ofDecl decl? faults else ofDecl decl? faults := by
  rw [ofDecl, List.filter_cons]
  simp only [decide_eq_true_eq]
  rfl

/-- Lists with the same faults of each declaration have the same faults. -/
theorem mem_iff_of_ofDecl_eq {faults faults' : List Fault}
    (h : ∀ decl?, ofDecl decl? faults = ofDecl decl? faults') (f : Fault) :
    f ∈ faults ↔ f ∈ faults' := by
  have hiff : f ∈ ofDecl f.place.decl? faults ↔ f ∈ ofDecl f.place.decl? faults' := by rw [h]
  simpa [mem_ofDecl_iff] using hiff

/-- Sorted lists with the same faults of each declaration are the same. -/
theorem eq_of_ofDecl_eq {faults faults' : List Fault}
    (hsorted : faults.Pairwise fun f g => f.isNoLater g = true)
    (hsorted' : faults'.Pairwise fun f g => f.isNoLater g = true)
    (h : ∀ decl?, ofDecl decl? faults = ofDecl decl? faults') : faults = faults' := by
  have hmem := mem_iff_of_ofDecl_eq h
  induction faults generalizing faults' with
  | nil => exact (List.eq_nil_iff_forall_not_mem.2 fun f hf => by simpa using (hmem f).2 hf).symm
  | cons f faults ih =>
    cases faults' with
    | nil => exact absurd ((hmem f).1 List.mem_cons_self) List.not_mem_nil
    | cons f' faults' =>
      rw [List.pairwise_cons] at hsorted hsorted'
      -- Each of the two first faults comes no later than the other.
      have hle : f.isNoLater f' = true := by
        rcases List.mem_cons.1 ((hmem f').2 List.mem_cons_self) with rfl | hf'
        · simpa using f'.isNoLater_total f'
        · exact hsorted.1 f' hf'
      have hge : f'.isNoLater f = true := by
        rcases List.mem_cons.1 ((hmem f).1 List.mem_cons_self) with rfl | hf
        · simpa using f.isNoLater_total f
        · exact hsorted'.1 f hf
      have hdecl := Fault.decl?_eq_of_isNoLater hle hge
      simp only [ofDecl_cons, hdecl] at h
      obtain ⟨rfl, -⟩ : f = f' ∧ _ := by simpa using h f'.place.decl?
      have hrest : ∀ decl?, ofDecl decl? faults = ofDecl decl? faults' := by
        intro decl?
        have hfirst := h decl?
        split_ifs at hfirst
        · exact (List.cons.inj hfirst).2
        · exact hfirst
      rw [ih hsorted.2 hsorted'.2 hrest (mem_iff_of_ofDecl_eq hrest)]

/-- Sorting does not change the faults of one declaration. -/
theorem ofDecl_mergeSort (decl? : Option Nat) (faults : List Fault) :
    ofDecl decl? (faults.mergeSort Fault.isNoLater) = ofDecl decl? faults := by
  have hsame : (ofDecl decl? faults).Pairwise fun f g => f.isNoLater g = true := by
    refine List.pairwise_of_forall_mem_list fun f hf g hg => ?_
    have hdecl := (mem_ofDecl_iff.1 hf).2.trans (mem_ofDecl_iff.1 hg).2.symm
    have hself := g.isNoLater_total g
    rw [Bool.or_self] at hself
    unfold Fault.isNoLater at *
    rwa [hdecl]
  have hsub := (List.sublist_mergeSort Fault.isNoLater_trans Fault.isNoLater_total hsame
    List.filter_sublist).filter (·.place.decl? = decl?)
  rw [ofDecl, List.filter_filter] at hsub
  simp only [Bool.and_self] at hsub
  exact (hsub.eq_of_length
    ((List.mergeSort_perm faults Fault.isNoLater).filter _).length_eq.symm).symm

section Groups

variable {α : Type} {first second : α → List Fault} (decl : α → Nat)

/-- Of groups of faults, each of a declaration of its own, the first parts of all and then the
second parts of all have the same faults of a declaration as the groups one after another. -/
theorem ofDecl_append_flatMap {groups : List α}
    (hdecl : ∀ g ∈ groups, ∀ f ∈ first g ++ second g, f.place.decl? = some (decl g))
    (hapart : groups.Pairwise fun g g' => decl g < decl g') (decl? : Option Nat) :
    ofDecl decl? (groups.flatMap first ++ groups.flatMap second) =
      ofDecl decl? (groups.flatMap fun g => first g ++ second g) := by
  induction groups with
  | nil => rfl
  | cons g groups ih =>
    rw [List.pairwise_cons] at hapart
    rw [List.forall_mem_cons] at hdecl
    have hrest := ih hdecl.2 hapart.2
    have hall : ∀ {faults : List Fault}, (∀ f ∈ faults, f ∈ first g ++ second g) →
        decl? = some (decl g) → ofDecl decl? faults = faults := by
      intro faults hmem heq
      exact List.filter_eq_self.2 fun f hf =>
        decide_eq_true ((hdecl.1 f (hmem f hf)).trans heq.symm)
    have hnone : ∀ {faults : List Fault}, (∀ f ∈ faults, f ∈ first g ++ second g) →
        decl? ≠ some (decl g) → ofDecl decl? faults = [] := by
      intro faults hmem hne
      refine List.filter_eq_nil_iff.2 fun f hf => ?_
      simpa [hdecl.1 f (hmem f hf)] using Ne.symm hne
    unfold ofDecl at *
    simp only [List.flatMap_cons, List.filter_append] at hrest ⊢
    by_cases heq : decl? = some (decl g)
    · -- The other groups have no fault of this declaration.
      have hlater : ∀ {part : α → List Fault}, (∀ g', ∀ f ∈ part g', f ∈ first g' ++ second g') →
          (groups.flatMap part).filter (·.place.decl? = decl?) = [] := by
        intro part hpart
        refine List.filter_eq_nil_iff.2 fun f hf => ?_
        obtain ⟨g', hg', hf⟩ := List.mem_flatMap.1 hf
        have hlt := hapart.1 g' hg'
        rw [hdecl.2 g' hg' f (hpart g' f hf), heq]
        simpa using Nat.ne_of_gt hlt
      rw [hlater fun g' f hf => List.mem_append_left _ hf,
        hlater fun g' f hf => List.mem_append_right _ hf, hlater fun g' f hf => hf]
      simp
    · rw [hnone (fun f hf => List.mem_append_left _ hf) heq,
        hnone (fun f hf => List.mem_append_right _ hf) heq]
      simpa using hrest

/-- Sorted by declaration, the first parts of all groups and then the second parts are the groups
one after another. -/
theorem mergeSort_append_flatMap {groups : List α}
    (hdecl : ∀ g ∈ groups, ∀ f ∈ first g ++ second g, f.place.decl? = some (decl g))
    (hapart : groups.Pairwise fun g g' => decl g < decl g') :
    (groups.flatMap first ++ groups.flatMap second).mergeSort Fault.isNoLater =
      groups.flatMap fun g => first g ++ second g := by
  refine eq_of_ofDecl_eq
    (List.pairwise_mergeSort Fault.isNoLater_trans Fault.isNoLater_total _) ?_ fun decl? => ?_
  · have hle : ∀ {f f' : Fault} {i k : Nat}, f.place.decl? = some i → f'.place.decl? = some k →
        i ≤ k → f.isNoLater f' = true := by
      intro f f' i k hf hf' hik
      unfold Fault.isNoLater
      rw [hf, hf']
      exact decide_eq_true hik
    rw [List.pairwise_flatMap]
    refine ⟨fun g hg => List.pairwise_of_forall_mem_list fun f hf f' hf' => ?_, ?_⟩
    · exact hle (hdecl g hg f hf) (hdecl g hg f' hf') (Nat.le_refl _)
    · refine hapart.imp_of_mem fun hg hg' hlt f hf f' hf' => ?_
      exact hle (hdecl _ hg f hf) (hdecl _ hg' f' hf') (Nat.le_of_lt hlt)
  · rw [ofDecl_mergeSort, ofDecl_append_flatMap decl hdecl hapart]

end Groups

/-- Sorted by declaration, the faults of the rounds are those of one declaration after another. -/
theorem mergeSort_roundFaults (decls : List String) :
    (roundFaults decls).mergeSort Fault.isNoLater = declarationFaults decls := by
  -- The readings with the indices of their declarations, which tell them apart.
  have hreadings : readings decls = (decls.zipIdx).map fun item =>
      (Declaration.ofString item.1).read (headerNames decls) item.2 := by
    rw [readings, List.mapIdx_eq_zipIdx_map]
  unfold roundFaults declarationFaults
  rw [hreadings, List.flatMap_map, List.flatMap_map, List.flatMap_map]
  refine mergeSort_append_flatMap (fun item => item.2) (fun item _ f hf => ?_) ?_
  · rcases List.mem_append.1 hf with hf | hf
    · exact Declaration.decl?_of_mem_faults hf
    · exact Declaration.decl?_of_mem_leafFaults hf
  · have hindices : (decls.zipIdx.map Prod.snd).Pairwise (· < ·) := by
      rw [List.zipIdx_map_snd]
      exact List.pairwise_lt_range'
    exact List.pairwise_map.1 hindices

/-- The rounds find a fault exactly when a declaration has one. -/
theorem roundFaults_eq_nil_iff {decls : List String} :
    roundFaults decls = [] ↔ declarationFaults decls = [] := by
  have hperm := List.mergeSort_perm (roundFaults decls) Fault.isNoLater
  rw [mergeSort_roundFaults] at hperm
  constructor
  · intro h
    rw [h] at hperm
    exact hperm.eq_nil
  · intro h
    rw [h] at hperm
    exact hperm.symm.eq_nil

/-- Reading fails for the faults of one declaration after another, or with `failFast` for the first
one that the rounds find; without any, the variants are read. -/
theorem parse_eq (failFast : Bool) (decls : List String) :
    parse failFast decls =
      if decls.isEmpty then .error [noDeclarations]
      else
        let faults := if failFast then (roundFaults decls).take 1 else declarationFaults decls
        if faults.isEmpty then .ok (Schema.classify ⟨(readings decls).map Reading.variant⟩)
        else .error faults := by
  obtain ⟨hfound, hvariants⟩ := Progress.found_ofDeclarations decls
  unfold parse
  refine if_congr Iff.rfl rfl ?_
  dsimp only
  cases failFast with
  | false =>
    rw [hfound, if_neg Bool.false_ne_true, mergeSort_roundFaults]
    by_cases hnone : roundFaults decls = []
    · rw [hvariants hnone, hnone, roundFaults_eq_nil_iff.1 hnone]
    · rw [if_neg (by simpa using hnone), if_neg (by simpa [← roundFaults_eq_nil_iff] using hnone)]
  | true =>
    rw [if_pos rfl]
    rcases Progress.isCutOf_ofDeclarations (decls.map Declaration.ofString) with
      ⟨hnone, heq⟩ | ⟨f, rest, hone, hall⟩
    · rw [heq, hnone, hvariants (hfound ▸ hnone), ← hfound, hnone]
      rfl
    · rw [hone, ← hfound, hall, List.mergeSort_singleton]
      rfl

end NodeFamily
