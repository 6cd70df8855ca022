import NodeFamily.Proofs.DeclarationGrammar

/-!
# Where faults are reported

Reading without `failFast` reports each fault at the declaration or the segment that has it, and at
no other place, whatever else is wrong with the list. Which places have a fault can be said on the
text alone: `HeaderIsFaulty` looks at the text before the first colon of a declaration, and
`SegmentIsFaulty` at one of the pieces that the commas after it leave. `exists_reported_iff` shows
that the places of the reported faults are exactly these.

The rounds of reading share what they have seen so far, and this is what has to be told from the
text as well: the names of the segments before one (`exists_readSegments_getElem?`) and the legal
headers of all declarations (`name?_eq_some_iff`).
-/

namespace NodeFamily

open Token (lexFrom significant)

/-! ## Parts of a declaration as text -/

/-- The text before the first colon. -/
def headerText (d : String) : List Char := d.toList.takeWhile (· ≠ ':')

/-- The text after the first colon, cut at every comma. Without a colon there are no segments. -/
def segmentTexts (d : String) : List (List Char) :=
  match d.toList.dropWhile (· ≠ ':') with
  | [] => []
  | _ :: rest => Text.cutAt ',' rest

/-- A name that a variant may have. -/
def IsVariantName (n : String) : Prop := isName n = true ∧ n ≠ nodeName ∧ n ≠ visitorName

/-- A declaration whose header is one legal name, up to spacing. -/
def Heads (d n : String) : Prop :=
  ':' ∈ d.toList ∧ SpellsName (headerText d) n ∧ IsVariantName n

/-- Exactly two words, up to spacing. -/
def ShowsWords (cs : List Char) (t n : String) : Prop :=
  ∃ type name : Token, significant (lexFrom .start cs) = [type, name] ∧ type.kind = .word ∧
    name.kind = .word ∧ type.text = t ∧ name.text = n

/-- A name that a field of a declaration may have. -/
def IsFieldName (d n : String) : Prop := isName n = true ∧ n ≠ acceptName ∧ ¬Heads d n

/-- A segment that is a legal type and a legal field name, as far as it can be told without the
other declarations and the other segments. -/
def PassesAlone (d : String) (cs : List Char) (n : String) : Prop :=
  ∃ t, ShowsWords cs t n ∧ IsLegalType [] t ∧ IsFieldName d n

/-- The header of declaration `i` is at fault: there is no colon, or what stands before it is no
legal name, or an earlier declaration has that legal name. -/
def HeaderIsFaulty (decls : List String) (i : Nat) (d : String) : Prop :=
  ':' ∉ d.toList ∨ (¬∃ n, SpellsName (headerText d) n ∧ IsVariantName n) ∨
    ∃ n, Heads d n ∧ ∃ k < i, ∃ e, decls[k]? = some e ∧ Heads e n

/-- Segment `j` of a declaration is at fault: it is not two words, or its type or its name is not
legal, or an earlier segment that passes alone has that name, or its type is a declared variant. -/
def SegmentIsFaulty (decls : List String) (d : String) (j : Nat) (cs : List Char) : Prop :=
  (¬∃ t n, ShowsWords cs t n) ∨ ∃ t n, ShowsWords cs t n ∧
    (¬IsLegalType [] t ∨ ¬IsFieldName d n ∨
      (∃ k < j, ∃ cs', (segmentTexts d)[k]? = some cs' ∧ PassesAlone d cs' n) ∨
      ∃ e ∈ decls, Heads e (typeBase t))

/-- The faults that reading all declarations reports. -/
def reportedFaults (decls : List String) : List Fault :=
  match parse false decls with
  | .ok _ => []
  | .error faults => faults

/-! ## Headers -/

/-- A text with a colon, cut at the first one. -/
theorem exists_segmentTexts {d : String} (h : ':' ∈ d.toList) :
    ∃ rest, d.toList = headerText d ++ ':' :: rest ∧ ':' ∉ headerText d ∧
      segmentTexts d = Text.cutAt ',' rest := by
  obtain ⟨pre, rest, hd, hpre⟩ := List.eq_append_cons_of_mem h
  have hall : ∀ c ∈ pre, decide (c ≠ ':') = true := fun c hc =>
    decide_eq_true fun heq => hpre (heq ▸ hc)
  have htake : headerText d = pre := by
    rw [headerText, hd, List.takeWhile_append_of_pos hall, List.takeWhile_cons_of_neg (by simp),
      List.append_nil]
  have hdrop : d.toList.dropWhile (fun c => decide (c ≠ ':')) = ':' :: rest := by
    rw [hd, List.dropWhile_append_of_pos hall, List.dropWhile_cons_of_neg (by simp)]
  refine ⟨rest, htake ▸ hd, htake ▸ hpre, ?_⟩
  rw [segmentTexts, hdrop]

/-- A text without a colon has no segments. -/
theorem segmentTexts_eq_nil {d : String} (h : ':' ∉ d.toList) : segmentTexts d = [] := by
  have hdrop : d.toList.dropWhile (fun c => decide (c ≠ ':')) = [] :=
    List.dropWhile_eq_nil_iff.2 fun c hc => decide_eq_true fun heq => h (heq ▸ hc)
  rw [segmentTexts, hdrop]

/-- A text with a segment has a colon. -/
theorem colon_of_segmentTexts {d : String} {j : Nat} {cs : List Char}
    (h : (segmentTexts d)[j]? = some cs) : ':' ∈ d.toList := by
  by_contra hcolon
  rw [segmentTexts_eq_nil hcolon] at h
  simp at h

/-- The parts of a declaration with a colon are those of its text. -/
theorem parts?_of_colon {d : String} (h : ':' ∈ d.toList) :
    (Declaration.ofString d).parts? = some (significant (lexFrom .start (headerText d)),
      Declaration.colonAfter (headerText d),
      Segment.segmentsOf (Declaration.colonAfter (headerText d))
        (Position.start.advance (headerText d ++ [':'])) (segmentTexts d)) := by
  obtain ⟨rest, hd, hpre, hsegments⟩ := exists_segmentTexts h
  rw [hsegments]
  exact Declaration.ofString_of_colon hd hpre

/-- One word that is a legal variant name is spelled by the text that shows it. -/
theorem significant_eq_singleton_iff {cs : List Char} {n : String} (hn : isName n = true) :
    (∃ t, significant (lexFrom .start cs) = [t] ∧ t.kind = .word ∧ t.text = n) ↔
      SpellsName cs n := by
  constructor
  · rintro ⟨t, ht, -, rfl⟩
    exact spellsName_of_significant ht
  · intro h
    exact h.significant (isWord_of_isName hn) .start

/-- A declaration has a legal header name exactly when its text does. -/
theorem name?_eq_some_iff {d n : String} : (Declaration.ofString d).name? = some n ↔ Heads d n := by
  by_cases hcolon : ':' ∈ d.toList
  · have hparts := parts?_of_colon hcolon
    constructor
    · intro h
      unfold Declaration.name? at h
      rw [hparts] at h
      split at h
      · next t _ _ heq =>
        split_ifs at h with hlegal
        obtain rfl := Option.some.inj h
        have hname := variantProblem?_eq_none_iff.1 (Option.isNone_iff_eq_none.1 hlegal.2)
        have hhead := (Prod.mk.inj (Option.some.inj heq)).1
        exact ⟨hcolon, (significant_eq_singleton_iff hname.1).1 ⟨t, hhead, hlegal.1, rfl⟩, hname⟩
      · simp at h
    · rintro ⟨-, hspells, hname⟩
      obtain ⟨t, ht, hkind, rfl⟩ := (significant_eq_singleton_iff hname.1).2 hspells
      rw [ht] at hparts
      exact Declaration.name?_of_parts hparts hkind (variantProblem?_eq_none_iff.2 hname)
  · have hparts := Declaration.ofString_of_not_mem hcolon
    refine iff_of_false ?_ fun h => hcolon h.1
    unfold Declaration.name?
    rw [hparts]
    simp

/-- An element is first found at `i` or after it exactly when no place before `i` has it. -/
theorem le_idxOf_iff {α : Type} [BEq α] [LawfulBEq α] {l : List α} {a : α} {i : Nat}
    (hi : i ≤ l.length) : i ≤ l.idxOf a ↔ ∀ k < i, l[k]? ≠ some a := by
  constructor
  · intro h k hk hget
    obtain ⟨hlt, rfl⟩ := List.getElem?_eq_some_iff.1 hget
    have hnot := List.not_of_lt_findIdx (Nat.lt_of_lt_of_le hk h)
    simp at hnot
  · intro h
    by_contra hlt
    rw [Nat.not_le] at hlt
    have hget := List.getElem_idxOf (Nat.lt_of_lt_of_le hlt hi)
    exact h _ hlt (List.getElem?_eq_some_iff.2 ⟨_, hget⟩)

/-- A name is new among the legal headers before declaration `i` exactly when no earlier declaration
has it. -/
theorem le_idxOf_headerNames_iff {decls : List String} {i : Nat} (hi : i < decls.length)
    {n : String} :
    i ≤ (headerNames decls).idxOf (some n) ↔ ¬∃ k < i, ∃ e, decls[k]? = some e ∧ Heads e n := by
  have hlength : i ≤ (headerNames decls).length := by
    rw [headerNames, List.length_map]
    exact Nat.le_of_lt hi
  have hget : ∀ k : Nat, (headerNames decls)[k]? = some (some n) ↔
      ∃ e, decls[k]? = some e ∧ Heads e n := by
    intro k
    rw [headerNames, List.getElem?_map, Option.map_eq_some_iff]
    simp only [name?_eq_some_iff]
  rw [le_idxOf_iff hlength]
  simp only [ne_eq, hget, not_exists, not_and]

/-- A name is declared exactly when it is the legal header of some declaration. -/
theorem declares_iff {decls : List String} {n : String} :
    declares decls n = true ↔ ∃ e ∈ decls, Heads e n := by
  rw [declares, List.contains_iff_mem, headerNames, List.mem_map]
  simp only [name?_eq_some_iff]

/-- The header of a declaration with a colon is without fault exactly when the text before the colon
is. -/
theorem headerFault?_eq_none_iff_heads {decls : List String} {i : Nat} {d : String}
    (hd : decls[i]? = some d) (hcolon : ':' ∈ d.toList) (colon : Token) :
    (Declaration.ofString d).headerFault? (headerNames decls) i
        (significant (lexFrom .start (headerText d))) colon = none ↔
      ¬HeaderIsFaulty decls i d := by
  have hi : i < decls.length := (List.getElem?_eq_some_iff.1 hd).1
  rw [Declaration.headerFault?_eq_none_iff]
  constructor
  · rintro ⟨t, ht, -, hproblem, hfirst⟩ hfaulty
    have hname : IsVariantName t.text := variantProblem?_eq_none_iff.1 hproblem
    have hspells : SpellsName (headerText d) t.text := spellsName_of_significant ht
    rcases hfaulty with hnot | hnot | ⟨n, hn, hearlier⟩
    · exact hnot hcolon
    · exact hnot ⟨t.text, hspells, hname⟩
    · -- The declaration has one legal name only, so it is the repeated one.
      have hsame := name?_eq_some_iff.2 hn
      rw [name?_eq_some_iff.2 ⟨hcolon, hspells, hname⟩] at hsame
      obtain rfl := Option.some.inj hsame
      exact (le_idxOf_headerNames_iff hi).1 hfirst hearlier
  · intro hfaulty
    unfold HeaderIsFaulty at hfaulty
    push Not at hfaulty
    obtain ⟨-, ⟨n, hspells, hname⟩, hnew⟩ := hfaulty
    obtain ⟨t, ht, hkind, rfl⟩ := (significant_eq_singleton_iff hname.1).2 hspells
    refine ⟨t, ht, hkind, variantProblem?_eq_none_iff.2 hname, ?_⟩
    rw [le_idxOf_headerNames_iff hi]
    rintro ⟨k, hk, e, he, hearlier⟩
    exact hnew t.text ⟨hcolon, hspells, hname⟩ k hk e he hearlier

/-! ## Segments -/

/-- Where a text begins changes nothing in its tokens but their places. -/
theorem map_lexFrom (p q : Position) (cs : List Char) :
    (lexFrom p cs).map (fun t => (t.kind, t.text)) =
      (lexFrom q cs).map fun t => (t.kind, t.text) := by
  fun_induction lexFrom p cs generalizing q with
  | case1 p => simp
  | case2 p c rest sort text ih =>
    rw [Token.lexFrom_cons, List.map_cons, List.map_cons, ih (q.advance text)]

/-- The words of a text, as they show wherever it begins. -/
theorem showsWords_iff (p : Position) {cs : List Char} {t n : String} :
    ShowsWords cs t n ↔
      ∃ type name : Token, significant (lexFrom p cs) = [type, name] ∧ type.kind = .word ∧
        name.kind = .word ∧ type.text = t ∧ name.text = n := by
  have hpair : ∀ ts : List Token, (∃ type name : Token, ts = [type, name] ∧ type.kind = .word ∧
      name.kind = .word ∧ type.text = t ∧ name.text = n) ↔
      ts.map (fun t => (t.kind, t.text)) = [(.word, t), (.word, n)] := by
    intro ts
    constructor
    · rintro ⟨type, name, rfl, htype, hname, rfl, rfl⟩
      simp [htype, hname]
    · intro h
      rcases ts with _ | ⟨type, _ | ⟨name, _ | ⟨other, ts⟩⟩⟩
      · simp at h
      · simp at h
      · exact ⟨type, name, rfl, by simp_all⟩
      · simp at h
  have hmap : ∀ p, (significant (lexFrom p cs)).map (fun t => (t.kind, t.text)) =
      ((lexFrom p cs).map fun t => (t.kind, t.text)).filter (·.1 ≠ .spacing) := by
    intro p
    rw [significant, List.filter_map]
    rfl
  rw [ShowsWords, hpair, hpair, hmap, hmap, map_lexFrom]

/-- What shows two words shows no other two. -/
theorem ShowsWords.unique {cs : List Char} {t n t' n' : String} (h : ShowsWords cs t n)
    (h' : ShowsWords cs t' n') : t = t' ∧ n = n' := by
  obtain ⟨type, name, hts, -, -, rfl, rfl⟩ := h
  obtain ⟨type', name', hts', -, -, rfl, rfl⟩ := h'
  rw [hts] at hts'
  obtain ⟨rfl, rfl⟩ : type = type' ∧ name = name' := by simpa using hts'
  exact ⟨rfl, rfl⟩

/-- A name is not that of its declaration exactly when it does not head it, whether the declaration
has a legal name or not. -/
theorem ne_name?_iff {d n : String} (hn : isName n = true) :
    n ≠ (Declaration.ofString d).name?.getD "" ↔ ¬Heads d n := by
  rw [← name?_eq_some_iff]
  cases (Declaration.ofString d).name? with
  | none =>
    have hne : n ≠ "" := by
      rintro rfl
      exact absurd hn (by decide)
    simpa using hne
  | some m => simp [eq_comm]

/-- A field name is without problem exactly when it is legal in its declaration. -/
theorem fieldProblem?_eq_none_iff_isFieldName {d n : String} :
    fieldProblem? n n ((Declaration.ofString d).name?.getD "") = none ↔ IsFieldName d n := by
  rw [fieldProblem?_eq_none_iff]
  constructor
  · rintro ⟨hn, hvariant, haccept⟩
    exact ⟨hn, haccept, (ne_name?_iff hn).1 hvariant⟩
  · rintro ⟨hn, haccept, hheads⟩
    exact ⟨hn, (ne_name?_iff hn).2 hheads, haccept⟩

/-- A segment is read without a fault exactly when it is two words, of which the first one is a
legal type and the second one is a legal name and new. -/
theorem Segment.read_lexFrom_eq_ok_iff {d : String} {place : Place} {earlier : List String}
    {separator : Token} {p : Position} {cs : List Char} {r : FieldReading} :
    Segment.read place ((Declaration.ofString d).name?.getD "") earlier
        ⟨separator, lexFrom p cs⟩ = .ok r ↔
      ∃ type name, significant (lexFrom p cs) = [type, name] ∧ type.kind = .word ∧
        name.kind = .word ∧ IsLegalType [] type.text ∧ IsFieldName d name.text ∧
        name.text ∉ earlier ∧
        r = ⟨{ type := type.text, name := name.text },
          if type.text = nodeName then none
          else some ⟨place, type.position.column, Text.trim (String.ofList cs), type.text⟩⟩ := by
  simp only [Segment.read_eq_ok_iff, readField_eq_ok_iff, typeProblem?_eq_none_iff_alone,
    fieldProblem?_eq_none_iff_isFieldName, Segment.text_lexFrom]

/-- A segment is read as a field of some name exactly when it passes alone and the name is new. -/
theorem exists_read_eq_ok_iff {d : String} {place : Place} {earlier : List String}
    {separator : Token} {p : Position} {cs : List Char} {n : String} :
    (∃ r, Segment.read place ((Declaration.ofString d).name?.getD "") earlier
        ⟨separator, lexFrom p cs⟩ = .ok r ∧ r.field.name = n) ↔
      PassesAlone d cs n ∧ n ∉ earlier := by
  unfold PassesAlone
  simp only [Segment.read_lexFrom_eq_ok_iff, showsWords_iff p]
  constructor
  · rintro ⟨r, ⟨type, name, hwords, htype, hname, hlegal, hfield, hnew, rfl⟩, rfl⟩
    exact ⟨⟨type.text, ⟨type, name, hwords, htype, hname, rfl, rfl⟩, hlegal, hfield⟩, hnew⟩
  · rintro ⟨⟨t, ⟨type, name, hwords, htype, hname, rfl, rfl⟩, hlegal, hfield⟩, hnew⟩
    exact ⟨_, ⟨type, name, hwords, htype, hname, hlegal, hfield, hnew, rfl⟩, rfl⟩

/-- A type that is legal alone is legal among the declared variants exactly when its base is none of
them. -/
theorem typeProblem?_eq_none_iff_base {isVariant : String → Bool} {t : String}
    (h : typeProblem? (fun _ => false) t = none) (hne : t ≠ nodeName) :
    typeProblem? isVariant t = none ↔ isVariant (typeBase t) = false := by
  unfold typeProblem? at h ⊢
  rw [if_neg hne] at h ⊢
  split_ifs at h ⊢
  all_goals simp_all

/-- The use of a leaf type is without fault exactly when no declaration is headed by its base. -/
theorem forall_leaf_iff {decls : List String} {place : Place} {column : Nat} {text t : String}
    (h : typeProblem? (fun _ => false) t = none) :
    (∀ l ∈ (if t = nodeName then none else some (⟨place, column, text, t⟩ : LeafUse)),
        l.fault? (declares decls) = none) ↔ ¬∃ e ∈ decls, Heads e (typeBase t) := by
  rw [← declares_iff, Bool.not_eq_true]
  by_cases hnode : t = nodeName
  · -- No declaration is headed by the node type, which is never a leaf.
    have hbase : typeBase t = nodeName := by rw [hnode]; decide
    have hnot : declares decls nodeName = false := by
      rw [← Bool.not_eq_true, declares_iff]
      rintro ⟨e, -, -, -, -, hne, -⟩
      exact hne rfl
    rw [hbase, hnot, if_pos hnode]
    simp
  · rw [if_neg hnode, ← typeProblem?_eq_none_iff_base h hnode]
    simp [LeafUse.fault?]

/-- A segment is read without any fault, its leaf type included, exactly when it is two words, its
type and its name are legal, the name is new, and no declaration is headed by the type. -/
theorem exists_read_clean_iff {decls : List String} {d : String} {place : Place}
    {earlier : List String} {separator : Token} {p : Position} {cs : List Char} :
    (∃ r, Segment.read place ((Declaration.ofString d).name?.getD "") earlier
        ⟨separator, lexFrom p cs⟩ = .ok r ∧ ∀ l ∈ r.leaf?, l.fault? (declares decls) = none) ↔
      ∃ t n, ShowsWords cs t n ∧ IsLegalType [] t ∧ IsFieldName d n ∧ n ∉ earlier ∧
        ¬∃ e ∈ decls, Heads e (typeBase t) := by
  simp only [Segment.read_lexFrom_eq_ok_iff, showsWords_iff p]
  constructor
  · rintro ⟨r, ⟨type, name, hwords, htype, hname, hlegal, hfield, hnew, rfl⟩, hleaf⟩
    exact ⟨type.text, name.text, ⟨type, name, hwords, htype, hname, rfl, rfl⟩, hlegal, hfield, hnew,
      (forall_leaf_iff (typeProblem?_eq_none_iff_alone.2 hlegal)).1 hleaf⟩
  · rintro ⟨t, n, ⟨type, name, hwords, htype, hname, rfl, rfl⟩, hlegal, hfield, hnew, hheads⟩
    refine ⟨_, ⟨type, name, hwords, htype, hname, hlegal, hfield, hnew, rfl⟩, ?_⟩
    exact (forall_leaf_iff (typeProblem?_eq_none_iff_alone.2 hlegal)).2 hheads

/-! ## The segments of a declaration -/

/-- The name of a segment is taken after it exactly when the segment passes alone, unless it was
taken before. -/
theorem mem_namesAfter_iff {d : String} {place : Place} {earlier : List String} {separator : Token}
    {p : Position} {cs : List Char} {n : String} :
    n ∈ namesAfter earlier (Segment.read place ((Declaration.ofString d).name?.getD "") earlier
        ⟨separator, lexFrom p cs⟩) ↔ n ∈ earlier ∨ PassesAlone d cs n := by
  have hread : (∃ r, Segment.read place ((Declaration.ofString d).name?.getD "") earlier
      ⟨separator, lexFrom p cs⟩ = .ok r ∧ r.field.name = n) ↔ PassesAlone d cs n ∧ n ∉ earlier :=
    exists_read_eq_ok_iff
  by_cases hn : n ∈ earlier
  · refine iff_of_true ?_ (.inl hn)
    cases Segment.read place ((Declaration.ofString d).name?.getD "") earlier
      ⟨separator, lexFrom p cs⟩ with
    | ok r => exact List.mem_cons_of_mem _ hn
    | error e => exact hn
  · rw [or_iff_right hn, ← and_iff_left (a := PassesAlone d cs n) hn, ← hread]
    cases Segment.read place ((Declaration.ofString d).name?.getD "") earlier
      ⟨separator, lexFrom p cs⟩ with
    | ok r => simp [namesAfter, hn, eq_comm]
    | error e => simp [namesAfter, hn]

/-- Each segment is read by itself, but for the names that the segments before it took. -/
theorem exists_readSegments_getElem? (i : Nat) (d : String) {pieces : List (List Char)}
    (earlier : List String) (j : Nat) (separator : Token) (p : Position) {k : Nat}
    {cs : List Char} (hcs : pieces[k]? = some cs) :
    ∃ names separator' p', (∀ n, n ∈ names ↔ n ∈ earlier ∨
        ∃ m < k, ∃ cs', pieces[m]? = some cs' ∧ PassesAlone d cs' n) ∧
      (Segment.segmentsOf separator p pieces)[k]? = some ⟨separator', lexFrom p' cs⟩ ∧
      (readSegments i ((Declaration.ofString d).name?.getD "") earlier j
        (Segment.segmentsOf separator p pieces))[k]? =
        some (Segment.read (.field i (j + k)) ((Declaration.ofString d).name?.getD "") names
          ⟨separator', lexFrom p' cs⟩) := by
  induction pieces generalizing earlier j separator p k with
  | nil => simp at hcs
  | cons piece pieces ih =>
    rw [Segment.segmentsOf, readSegments_cons]
    cases k with
    | zero =>
      obtain rfl : piece = cs := by simpa using hcs
      exact ⟨earlier, separator, p, by simp, rfl, rfl⟩
    | succ k =>
      -- The segments after the first one are read as before, with its name taken if it passes.
      rw [List.getElem?_cons_succ] at hcs ⊢
      obtain ⟨names, separator', p', hnames, hsegment, hread⟩ := ih
        (namesAfter earlier (Segment.read (.field i j) ((Declaration.ofString d).name?.getD "")
          earlier ⟨separator, lexFrom p piece⟩)) (j + 1) ⟨.comma, ",", p.advance piece⟩
        (p.advance (piece ++ [','])) hcs
      refine ⟨names, separator', p', fun n => ?_, hsegment, ?_⟩
      · rw [hnames, mem_namesAfter_iff, or_assoc]
        refine or_congr_right ?_
        constructor
        · rintro (hpass | ⟨m, hm, cs', hget, hpass⟩)
          · exact ⟨0, Nat.zero_lt_succ k, piece, rfl, hpass⟩
          · exact ⟨m + 1, Nat.succ_lt_succ hm, cs', hget, hpass⟩
        · rintro ⟨m, hm, cs', hget, hpass⟩
          cases m with
          | zero =>
            obtain rfl : piece = cs' := by simpa using hget
            exact .inl hpass
          | succ m => exact .inr ⟨m, Nat.lt_of_succ_lt_succ hm, cs', hget, hpass⟩
      · rw [List.getElem?_cons_succ, hread, Nat.add_right_comm, Nat.add_assoc]

/-- There are as many results as segments. -/
theorem length_readSegments (i : Nat) (variant : String) (earlier : List String) (j : Nat)
    (segments : List Segment) :
    (readSegments i variant earlier j segments).length = segments.length := by
  induction segments generalizing earlier j with
  | nil => rfl
  | cons s segments ih => rw [readSegments_cons, List.length_cons, List.length_cons, ih]

/-- There are as many segments as pieces. -/
theorem length_segmentsOf (separator : Token) (p : Position) (pieces : List (List Char)) :
    (Segment.segmentsOf separator p pieces).length = pieces.length := by
  induction pieces generalizing separator p with
  | nil => rfl
  | cons piece pieces ih => rw [Segment.segmentsOf, List.length_cons, List.length_cons, ih]

/-- Each result is that of a piece. -/
theorem exists_piece_of_readSegments {i : Nat} {variant : String} {earlier : List String} {j : Nat}
    {separator : Token} {p : Position} {pieces : List (List Char)} {k : Nat}
    {r : Except Fault FieldReading}
    (h : (readSegments i variant earlier j (Segment.segmentsOf separator p pieces))[k]? = some r) :
    ∃ cs, pieces[k]? = some cs := by
  have hlt := (List.getElem?_eq_some_iff.1 h).1
  rw [length_readSegments, length_segmentsOf] at hlt
  exact ⟨_, List.getElem?_eq_getElem hlt⟩

/-! ## The faults of a result -/

/-- A fault of a result: the fault that it is, or that of the leaf type of the field that it is. -/
def IsFaultOf (isVariant : String → Bool) (r : Except Fault FieldReading) (f : Fault) : Prop :=
  faultOf? r = some f ∨ ∃ x, readingOf? r = some x ∧ ∃ l ∈ x.leaf?, l.fault? isVariant = some f

/-- A result has a fault exactly when it is no field, or one whose leaf type has a fault. -/
theorem exists_isFaultOf_iff {isVariant : String → Bool} {r : Except Fault FieldReading} :
    (∃ f, IsFaultOf isVariant r f) ↔
      ¬∃ x, r = .ok x ∧ ∀ l ∈ x.leaf?, l.fault? isVariant = none := by
  cases r with
  | error e => simp [IsFaultOf, faultOf?]
  | ok x =>
    cases hleaf : x.leaf? with
    | none => simp [IsFaultOf, faultOf?, readingOf?, hleaf]
    | some l => simp [IsFaultOf, faultOf?, readingOf?, hleaf, ← Option.ne_none_iff_exists']

/-- A fault of a segment is at the place that the segment is read for. -/
theorem IsFaultOf.place {isVariant : String → Bool} {place : Place} {variant : String}
    {earlier : List String} {s : Segment} {f : Fault}
    (h : IsFaultOf isVariant (s.read place variant earlier) f) : f.place = place := by
  have hread := place_of_read place variant earlier s
  generalize s.read place variant earlier = r at h hread
  cases r with
  | error e =>
    obtain rfl : e = f := by simpa [IsFaultOf, faultOf?, readingOf?] using h
    exact hread.1 e rfl
  | ok x =>
    obtain ⟨l, hl, hf⟩ : ∃ l ∈ x.leaf?, l.fault? isVariant = some f := by
      simpa [IsFaultOf, faultOf?, readingOf?] using h
    obtain ⟨p, -, rfl⟩ := Option.map_eq_some_iff.1 hf
    exact hread.2 x rfl l hl

/-! ## The faults of a list of declarations -/

/-- What is reported of declaration `i`, in both rounds. -/
def faultsOf (decls : List String) (i : Nat) (d : String) : List Fault :=
  let r := (Declaration.ofString d).read (headerNames decls) i
  r.faults ++ r.leaves.filterMap (·.fault? (declares decls))

/-- What is reported of declarations are their faults, one declaration after another. -/
theorem reportedFaults_eq {decls : List String} (hne : decls ≠ []) :
    reportedFaults decls = declarationFaults decls := by
  unfold reportedFaults
  rw [parse_eq, if_neg (by simpa using hne)]
  dsimp only
  rw [if_neg Bool.false_ne_true]
  cases declarationFaults decls <;> rfl

/-- What is reported of declarations is what is reported of each of them. -/
theorem mem_reportedFaults_iff {decls : List String} (hne : decls ≠ []) {f : Fault} :
    f ∈ reportedFaults decls ↔ ∃ i d, decls[i]? = some d ∧ f ∈ faultsOf decls i d := by
  rw [reportedFaults_eq hne, declarationFaults, readings]
  simp only [List.mem_flatMap, List.mem_mapIdx]
  constructor
  · rintro ⟨r, ⟨i, hi, rfl⟩, hf⟩
    exact ⟨i, decls[i], List.getElem?_eq_getElem hi, hf⟩
  · rintro ⟨i, d, hd, hf⟩
    obtain ⟨hi, rfl⟩ := List.getElem?_eq_some_iff.1 hd
    exact ⟨_, ⟨i, hi, rfl⟩, hf⟩

/-- Of a declaration without a colon only that is reported. -/
theorem faultsOf_of_not_mem {decls : List String} {i : Nat} {d : String} (h : ':' ∉ d.toList) :
    faultsOf decls i d = [⟨.missingSeparator, .declaration i, none, Text.trim d,
      "expected \"Name : Type field, ...\" in " ++ Text.quote (Text.trim d)⟩] := by
  unfold faultsOf Declaration.read
  rw [Declaration.ofString_of_not_mem h]
  rfl

/-- What is reported of a declaration with a colon is the fault of its header, if it has one, and
those of its segments, each of which is read by itself but for the names taken before it. -/
theorem mem_faultsOf_iff {decls : List String} {i : Nat} {d : String} (h : ':' ∈ d.toList)
    {f : Fault} : f ∈ faultsOf decls i d ↔
      (Declaration.ofString d).headerFault? (headerNames decls) i
          (significant (lexFrom .start (headerText d)))
          (Declaration.colonAfter (headerText d)) = some f ∨
        ∃ r ∈ readSegments i ((Declaration.ofString d).name?.getD "") [] 0
          (Segment.segmentsOf (Declaration.colonAfter (headerText d))
            (Position.start.advance (headerText d ++ [':'])) (segmentTexts d)),
          IsFaultOf (declares decls) r f := by
  unfold faultsOf Declaration.read
  rw [parts?_of_colon h]
  simp only [List.mem_append, Option.mem_toList, List.mem_filterMap, or_assoc]
  refine or_congr_right ?_
  constructor
  · rintro (⟨r, hr, hf⟩ | ⟨l, ⟨x, ⟨r, hr, hx⟩, hl⟩, hf⟩)
    · exact ⟨r, hr, .inl hf⟩
    · exact ⟨r, hr, .inr ⟨x, hx, l, hl, hf⟩⟩
  · rintro ⟨r, hr, hf | ⟨x, hx, l, hl, hf⟩⟩
    · exact .inl ⟨r, hr, hf⟩
    · exact .inr ⟨l, ⟨x, ⟨r, hr, hx⟩, hl⟩, hf⟩

/-- A segment is at fault exactly when it is not read without a fault. -/
theorem segmentIsFaulty_iff {decls : List String} {d : String} {j : Nat} {cs : List Char}
    {names : List String} (hnames : ∀ n, n ∈ names ↔
      ∃ k < j, ∃ cs', (segmentTexts d)[k]? = some cs' ∧ PassesAlone d cs' n) :
    SegmentIsFaulty decls d j cs ↔ ¬∃ t n, ShowsWords cs t n ∧ IsLegalType [] t ∧
      IsFieldName d n ∧ n ∉ names ∧ ¬∃ e ∈ decls, Heads e (typeBase t) := by
  unfold SegmentIsFaulty
  constructor
  · rintro (hnot | ⟨t, n, hwords, hfault⟩) ⟨t', n', hwords', htype, hname, hnew, hleaf⟩
    · exact hnot ⟨t', n', hwords'⟩
    · obtain ⟨rfl, rfl⟩ := hwords.unique hwords'
      rcases hfault with hfault | hfault | hfault | hfault
      · exact hfault htype
      · exact hfault hname
      · exact hnew ((hnames _).2 hfault)
      · exact hleaf hfault
  · intro hnot
    by_cases hwords : ∃ t n, ShowsWords cs t n
    · obtain ⟨t, n, hwords⟩ := hwords
      refine .inr ⟨t, n, hwords, ?_⟩
      rw [← hnames]
      by_contra hclean
      push Not at hclean
      exact hnot ⟨t, n, hwords, hclean.1, hclean.2.1, hclean.2.2.1,
        fun ⟨e, he, hheads⟩ => hclean.2.2.2 e he hheads⟩
    · exact .inl hwords

/-- A fault of the segments is at one of them, and it is there that the segment is at fault. -/
theorem exists_isFaultOf_place_iff (decls : List String) (i : Nat) (d : String) (colon : Token)
    (p : Position) (place : Place) :
    (∃ r ∈ readSegments i ((Declaration.ofString d).name?.getD "") [] 0
        (Segment.segmentsOf colon p (segmentTexts d)),
        ∃ f, IsFaultOf (declares decls) r f ∧ f.place = place) ↔
      ∃ j cs, place = .field i j ∧ (segmentTexts d)[j]? = some cs ∧
        SegmentIsFaulty decls d j cs := by
  -- Segment `j` is read for place `j`, and it has a fault exactly when its text has one.
  have hread : ∀ j cs, (segmentTexts d)[j]? = some cs →
      ∃ r, (readSegments i ((Declaration.ofString d).name?.getD "") [] 0
          (Segment.segmentsOf colon p (segmentTexts d)))[j]? = some r ∧
        (∀ f, IsFaultOf (declares decls) r f → f.place = .field i j) ∧
        ((∃ f, IsFaultOf (declares decls) r f) ↔ SegmentIsFaulty decls d j cs) := by
    intro j cs hcs
    obtain ⟨names, separator, q, hnames, -, hget⟩ :=
      exists_readSegments_getElem? i d [] 0 colon p hcs
    rw [Nat.zero_add] at hget
    refine ⟨_, hget, fun f hf => hf.place, ?_⟩
    rw [exists_isFaultOf_iff, exists_read_clean_iff]
    exact (segmentIsFaulty_iff (by simpa using hnames)).symm
  constructor
  · rintro ⟨r, hr, f, hf, rfl⟩
    obtain ⟨j, hj⟩ := List.mem_iff_getElem?.1 hr
    obtain ⟨cs, hcs⟩ := exists_piece_of_readSegments hj
    obtain ⟨r', hr', hplace, hfaulty⟩ := hread j _ hcs
    obtain rfl : r' = r := Option.some.inj (hr'.symm.trans hj)
    exact ⟨j, _, hplace f hf, hcs, hfaulty.1 ⟨f, hf⟩⟩
  · rintro ⟨j, cs, rfl, hcs, hfaulty⟩
    obtain ⟨r, hr, hplace, hiff⟩ := hread j cs hcs
    obtain ⟨f, hf⟩ := hiff.2 hfaulty
    exact ⟨r, List.mem_of_getElem? hr, f, hf, hplace f hf⟩

/-- The places of what is reported of one declaration are those of its faults. -/
theorem exists_faultsOf_iff {decls : List String} {i : Nat} {d : String}
    (hd : decls[i]? = some d) (place : Place) :
    (∃ f ∈ faultsOf decls i d, f.place = place) ↔
      (place = .declaration i ∧ HeaderIsFaulty decls i d) ∨
        ∃ j cs, place = .field i j ∧ (segmentTexts d)[j]? = some cs ∧
          SegmentIsFaulty decls d j cs := by
  by_cases hcolon : ':' ∈ d.toList
  · rw [← exists_isFaultOf_place_iff decls i d (Declaration.colonAfter (headerText d))
        (Position.start.advance (headerText d ++ [':'])) place,
      ← not_not (a := HeaderIsFaulty decls i d),
      ← headerFault?_eq_none_iff_heads hd hcolon (Declaration.colonAfter (headerText d)),
      Option.eq_none_iff_forall_ne_some]
    push Not
    constructor
    · rintro ⟨f, hf, rfl⟩
      rcases (mem_faultsOf_iff hcolon).1 hf with hhead | ⟨r, hr, hf⟩
      · exact .inl ⟨place_of_headerFault? hhead, f, hhead⟩
      · exact .inr ⟨r, hr, f, hf, rfl⟩
    · rintro (⟨rfl, f, hhead⟩ | ⟨r, hr, f, hf, hplace⟩)
      · exact ⟨f, (mem_faultsOf_iff hcolon).2 (.inl hhead), place_of_headerFault? hhead⟩
      · exact ⟨f, (mem_faultsOf_iff hcolon).2 (.inr ⟨r, hr, hf⟩), hplace⟩
  · -- Without a colon there is one fault, and there are no segments.
    rw [segmentTexts_eq_nil hcolon, faultsOf_of_not_mem hcolon]
    simp [HeaderIsFaulty, hcolon, eq_comm]

/-! ## All declarations -/

/-- The faults of a list of declarations are reported exactly where they are: one of the whole list
when it is empty, one at each declaration whose header is at fault, and one at each segment that is
at fault, whatever the other declarations and segments are. A declaration without a colon has no
segments. -/
theorem exists_reported_iff (decls : List String) (place : Place) :
    (∃ f ∈ reportedFaults decls, f.place = place) ↔
      match place with
      | .schema => decls = []
      | .declaration i => ∃ d, decls[i]? = some d ∧ HeaderIsFaulty decls i d
      | .field i j => ∃ d cs, decls[i]? = some d ∧ ':' ∈ d.toList ∧
          (segmentTexts d)[j]? = some cs ∧ SegmentIsFaulty decls d j cs := by
  by_cases hne : decls = []
  · subst hne
    cases place <;> simp [reportedFaults, parse, noDeclarations]
  · have hsome : (∃ f ∈ reportedFaults decls, f.place = place) ↔
        ∃ i d, decls[i]? = some d ∧ ∃ f ∈ faultsOf decls i d, f.place = place := by
      simp only [mem_reportedFaults_iff hne]
      constructor
      · rintro ⟨f, ⟨i, d, hd, hf⟩, hplace⟩
        exact ⟨i, d, hd, f, hf, hplace⟩
      · rintro ⟨i, d, hd, f, hf, hplace⟩
        exact ⟨f, ⟨i, d, hd, hf⟩, hplace⟩
    rw [hsome]
    cases place with
    | schema =>
      refine iff_of_false ?_ hne
      rintro ⟨i, d, hd, hf⟩
      rcases (exists_faultsOf_iff hd _).1 hf with ⟨hplace, -⟩ | ⟨j, cs, hplace, -⟩
      all_goals cases hplace
    | declaration i =>
      constructor
      · rintro ⟨i', d, hd, hf⟩
        rcases (exists_faultsOf_iff hd _).1 hf with ⟨hplace, hfaulty⟩ | ⟨j, cs, hplace, -⟩
        · cases hplace
          exact ⟨d, hd, hfaulty⟩
        · cases hplace
      · rintro ⟨d, hd, hfaulty⟩
        exact ⟨i, d, hd, (exists_faultsOf_iff hd _).2 (.inl ⟨rfl, hfaulty⟩)⟩
    | field i j =>
      constructor
      · rintro ⟨i', d, hd, hf⟩
        rcases (exists_faultsOf_iff hd _).1 hf with ⟨hplace, -⟩ | ⟨j', cs, hplace, hcs, hfaulty⟩
        · cases hplace
        · cases hplace
          exact ⟨d, cs, hd, colon_of_segmentTexts hcs, hcs, hfaulty⟩
      · rintro ⟨d, cs, hd, -, hcs, hfaulty⟩
        exact ⟨i, d, hd, (exists_faultsOf_iff hd _).2 (.inr ⟨j, cs, rfl, hcs, hfaulty⟩)⟩

/-- The second segment of a repeated header is at fault for its own leaf type, and the third for
repeating a name. -/
example : (reportedFaults ["B : Expr l", "B : Token t, B u, Expr t", "C"]).map (·.place) =
    [.declaration 1, .field 1 2, .field 1 1, .declaration 2] := by
  rw [reportedFaults_eq (by simp)]
  decide +kernel

end NodeFamily
