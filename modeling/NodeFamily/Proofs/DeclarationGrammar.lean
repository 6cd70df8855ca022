import Mathlib.Data.List.Forall2
import Mathlib.Data.List.Nodup
import NodeFamily.Proofs.Legality
import NodeFamily.Proofs.Readings
import NodeFamily.Proofs.Segments

/-!
# The grammar of declarations

`Spells d v` says what a declaration has to look like to stand for a variant, character by
character: a name, a colon, and after it pairs of a type and a name with commas between them, all
with spacing where it may or has to be. `parse_eq_ok_iff_spells` shows that reading a list of
declarations succeeds exactly when each of them spells a variant and the variants together are a
legal schema, and that this schema is the result.

The proof goes from the inside out: a segment (`Segment.read_iff`), the segments of a declaration
(`readSegments_iff`), a declaration (`Declaration.read_iff`), and at last the list of them. At each
level the first round of reading and the check of leaf types are taken together, so that what is
left over is the legality of the fields.
-/

namespace NodeFamily

open Token (lexFrom significant wordExtent EndsWord)

/-! ## Words -/

/-- A text that is a word, wherever something ends it. -/
def IsWord (w : List Char) : Prop := w ≠ [] ∧ wordExtent w = w.length

/-- A name is a word. -/
theorem isWord_of_isName {n : String} (h : isName n = true) : IsWord n.toList := by
  have hshape := hasIdentifierShape_of_isName h
  refine ⟨fun hnil => ?_, by simpa using Token.wordExtent_name (.inl rfl) hshape⟩
  rw [hnil] at hshape
  exact absurd hshape (by decide)

/-- A legal type is a word. -/
theorem IsLegalType.isWord {names : List String} {t : String} (h : IsLegalType names t) :
    IsWord t.toList := by
  rcases h with rfl | ⟨star, base, hstar, rfl, hbase, -⟩
  · exact isWord_of_isName (by decide)
  · have hstar' : star.toList = [] ∨ star.toList = ['*'] := by
      rcases hstar with rfl | rfl
      · exact .inl rfl
      · exact .inr rfl
    rw [String.toList_append]
    cases hbase with
    | name hn =>
      refine ⟨?_, Token.wordExtent_name hstar' (hasIdentifierShape_of_isName hn)⟩
      simp [(isWord_of_isName hn).1]
    | member hp hn =>
      rw [String.toList_append, String.toList_append, List.append_assoc]
      refine ⟨?_, Token.wordExtent_member hstar' (hasIdentifierShape_of_isName hp)
        (hasIdentifierShape_of_isName hn)⟩
      simp

/-- What is made of names and signs of types has no character that is neither. -/
theorem IsLegalType.not_mem {names : List String} {t : String} (h : IsLegalType names t) {c : Char}
    (hc : continuesIdentifier c = false) (hdot : c ≠ '.') (hstar : c ≠ '*') : c ∉ t.toList := by
  rcases h with rfl | ⟨star, base, hs, rfl, hbase, -⟩
  · exact not_mem_of_isName (n := nodeName) (by decide) hc
  · have hs' : c ∉ star.toList := by
      rcases hs with rfl | rfl <;> simp [hstar]
    rw [String.toList_append, List.mem_append, not_or]
    refine ⟨hs', ?_⟩
    cases hbase with
    | name hn => exact not_mem_of_isName hn hc
    | member hp hn =>
      simp [not_mem_of_isName hp hc, not_mem_of_isName hn hc, hdot]

/-- Spacing ends a word before it. -/
theorem IsGap.endsWord {g : List Char} (h : IsGap g) : EndsWord g := by
  cases g with
  | nil => exact Token.endsWord_nil
  | cons c g => exact Token.endsWord_spacing (h c List.mem_cons_self) g

/-- Spacing has neither of the separators in it. -/
theorem IsGap.not_mem {g : List Char} (h : IsGap g) {sep : Char} (hsep : sep = ':' ∨ sep = ',') :
    sep ∉ g := by
  intro hm
  have := h sep hm
  rcases hsep with rfl | rfl <;> exact absurd this (by decide)

/-- What follows a word does not continue it. -/
theorem not_continuesName_of_wordExtent {w rest : List Char} (hne : w ≠ [])
    (h : wordExtent (w ++ rest) = w.length) {c : Char} (hc : c ∈ rest.head?) :
    Token.continuesName c = false := by
  have hpos : wordExtent (w ++ rest) ≠ 0 := by
    rw [h]
    exact fun hz => hne (List.length_eq_zero_iff.1 hz)
  apply Token.not_continuesName_after_word hpos
  rwa [h, List.drop_left]

/-! ## What the tokens of a piece spell -/

/-- One word with spacing around it. -/
def SpellsName (cs : List Char) (n : String) : Prop :=
  ∃ a b, IsGap a ∧ IsGap b ∧ cs = a ++ n.toList ++ b

/-- Two words with spacing around them and between them. -/
def SpellsPair (cs : List Char) (t n : String) : Prop :=
  ∃ a b c, IsGap a ∧ IsGap b ∧ b ≠ [] ∧ IsGap c ∧ cs = a ++ t.toList ++ b ++ n.toList ++ c

/-- A piece that spells a name shows one word. -/
theorem SpellsName.significant {cs : List Char} {n : String} (h : SpellsName cs n)
    (hn : IsWord n.toList) (p : Position) :
    ∃ t : Token, Token.significant (lexFrom p cs) = [t] ∧ t.kind = .word ∧ t.text = n := by
  obtain ⟨a, b, ha, hb, rfl⟩ := h
  have hextent : wordExtent (n.toList ++ b) = n.toList.length := by
    rw [Token.wordExtent_append _ hb.endsWord, hn.2]
  rw [List.append_assoc, Token.significant_lexFrom_gap ha,
    Token.significant_lexFrom_word hn.1 hextent, Token.significant_lexFrom_eq_nil_iff.2 hb]
  exact ⟨_, rfl, rfl, String.ofList_toList⟩

/-- A piece that spells a pair shows two words. -/
theorem SpellsPair.significant {cs : List Char} {t n : String} (h : SpellsPair cs t n)
    (ht : IsWord t.toList) (hn : IsWord n.toList) (p : Position) :
    ∃ type name : Token, Token.significant (lexFrom p cs) = [type, name] ∧
      type.kind = .word ∧ name.kind = .word ∧ type.text = t ∧ name.text = n := by
  obtain ⟨a, b, c, ha, hb, hne, hc, rfl⟩ := h
  have hends : EndsWord (b ++ (n.toList ++ c)) := by
    obtain ⟨x, b, rfl⟩ := List.exists_cons_of_ne_nil hne
    exact Token.endsWord_spacing (hb x List.mem_cons_self) _
  have hextent : wordExtent (t.toList ++ (b ++ (n.toList ++ c))) = t.toList.length := by
    rw [Token.wordExtent_append _ hends, ht.2]
  obtain ⟨name, hname, hkind, htext⟩ := SpellsName.significant ⟨b, c, hb, hc, rfl⟩ hn
    ((p.advance a).advance t.toList)
  rw [List.append_assoc] at hname
  refine ⟨⟨.word, t, p.advance a⟩, name, ?_, rfl, hkind, rfl, htext⟩
  rw [List.append_assoc, List.append_assoc, List.append_assoc, Token.significant_lexFrom_gap ha,
    Token.significant_lexFrom_word ht.1 hextent, hname, String.ofList_toList]

/-- A piece that shows one word spells it. -/
theorem spellsName_of_significant {p : Position} {cs : List Char} {t : Token}
    (h : significant (lexFrom p cs) = [t]) : SpellsName cs t.text := by
  obtain ⟨g, w, rest, rfl, hg, -, htext, -, hrest, -⟩ :=
    Token.exists_of_significant_lexFrom_eq_cons h
  refine ⟨g, rest, hg, Token.significant_lexFrom_eq_nil_iff.1 hrest.symm, ?_⟩
  rw [htext, String.toList_ofList, List.append_assoc]

/-- A piece that shows two words spells them, if the second one is a name: a second word without
spacing before it would begin with a star. -/
theorem spellsPair_of_significant {p : Position} {cs : List Char} {type name : Token}
    (h : significant (lexFrom p cs) = [type, name]) (htype : type.kind = .word)
    (hname : isName name.text = true) : SpellsPair cs type.text name.text := by
  obtain ⟨a, w, rest, rfl, ha, hw, htext, -, hrest, hextent⟩ :=
    Token.exists_of_significant_lexFrom_eq_cons h
  obtain ⟨b, c, hb, hc, rfl⟩ := spellsName_of_significant hrest.symm
  refine ⟨a, b, c, ha, hb, ?_, hc, ?_⟩
  · -- Without spacing the name would go on with the first word, which has taken all it can.
    rintro rfl
    obtain ⟨x, n, hx⟩ := List.exists_cons_of_ne_nil (isWord_of_isName hname).1
    have hafter : Token.continuesName x = false :=
      not_continuesName_of_wordExtent hw (hextent htype) (by rw [hx]; rfl)
    have hopens : Token.opensName x = true := by
      have := hasIdentifierShape_of_isName hname
      rw [hx] at this
      exact (Bool.and_eq_true_iff.1 this).1
    rw [continuesName_of_opensName hopens] at hafter
    exact absurd hafter (by decide)
  · rw [htext, String.toList_ofList]
    simp only [List.append_assoc]

/-! ## Spelling a variant -/

/-- A segment that spells a field, which is marked by its type. -/
def SpellsField (cs : List Char) (f : Field) : Prop :=
  SpellsPair cs f.type f.name ∧ f.kind = if f.type = nodeName then .recursive else .leaf

/-- A declaration that spells a variant: its name, a colon, and then one or more segments that spell
its fields, with commas between them. -/
def Spells (d : String) (v : Variant) : Prop :=
  ∃ header segments, d.toList = header ++ ':' :: [','].intercalate segments ∧
    SpellsName header v.name ∧ segments ≠ [] ∧ List.Forall₂ SpellsField segments v.fields

/-- A type is legal among fewer variant names. -/
theorem IsLegalType.nil {names : List String} {t : String} (h : IsLegalType names t) :
    IsLegalType [] t := by
  rcases h with rfl | ⟨star, base, hstar, rfl, hbase, hnode, hvisitor, -⟩
  · exact .inl rfl
  · exact .inr ⟨star, base, hstar, rfl, hbase, hnode, hvisitor, List.not_mem_nil⟩

/-- What two words of a segment are read as, when nothing is wrong with them. -/
theorem readField_eq_ok_iff {place : Place} {variant : String} {earlier : List String}
    {text : String} {type name : Token} {r : FieldReading} :
    readField place variant earlier text type name = .ok r ↔
      typeProblem? (fun _ => false) type.text = none ∧
        fieldProblem? name.text name.text variant = none ∧ name.text ∉ earlier ∧
        r = ⟨{ type := type.text, name := name.text },
          if type.text = nodeName then none
          else some ⟨place, type.position.column, text, type.text⟩⟩ := by
  unfold readField
  split
  · next p hp => simp [hp]
  · next hp =>
    split
    · next q hq => simp [hq]
    · next hq =>
      split_ifs with hearlier
      all_goals simp_all [eq_comm]

/-- What a segment is read as, when nothing is wrong with it. -/
theorem Segment.read_eq_ok_iff {place : Place} {variant : String} {earlier : List String}
    {s : Segment} {r : FieldReading} :
    s.read place variant earlier = .ok r ↔
      ∃ type name, significant s.tokens = [type, name] ∧ type.kind = .word ∧ name.kind = .word ∧
        readField place variant earlier s.text type name = .ok r := by
  unfold Segment.read
  split
  · next type name hwords =>
    split_ifs with hkind
    · constructor
      · exact fun h => ⟨type, name, hwords, hkind.1, hkind.2, h⟩
      · rintro ⟨type', name', hwords', -, -, h⟩
        rw [hwords] at hwords'
        obtain ⟨rfl, rfl⟩ : type = type' ∧ name = name' := by simpa using hwords'
        exact h
    · refine iff_of_false (by simp) ?_
      rintro ⟨type', name', hwords', htype, hname, -⟩
      rw [hwords] at hwords'
      obtain ⟨rfl, rfl⟩ : type = type' ∧ name = name' := by simpa using hwords'
      exact hkind ⟨htype, hname⟩
  · next hother =>
    refine iff_of_false (by simp) ?_
    rintro ⟨type, name, hwords, -⟩
    exact hother type name hwords

/-- A segment is read as a field without any fault, one of its leaf type included, exactly when it
spells that field and the field is legal and new. -/
theorem Segment.read_iff {isVariant : String → Bool} {names : List String}
    (h : ∀ n, isVariant n = true ↔ n ∈ names) {place : Place} {variant : String}
    {earlier : List String} {separator : Token} {p : Position} {cs : List Char} {f : Field} :
    (∃ r, Segment.read place variant earlier ⟨separator, lexFrom p cs⟩ = .ok r ∧
      (∀ l ∈ r.leaf?, l.fault? isVariant = none) ∧ r.field.classify = f) ↔
      SpellsField cs f ∧ f.IsLegal false names variant ∧ f.name ∉ earlier := by
  constructor
  · rintro ⟨r, hread, hleaf, rfl⟩
    obtain ⟨type, name, hwords, htype, -, hfield⟩ := Segment.read_eq_ok_iff.1 hread
    obtain ⟨-, hproblem, hnew, rfl⟩ := readField_eq_ok_iff.1 hfield
    obtain ⟨hname, hvariant, haccept⟩ := fieldProblem?_eq_none_iff.1 hproblem
    refine ⟨⟨spellsPair_of_significant hwords htype hname, rfl⟩,
      ⟨?_, hname, hvariant, haccept⟩, hnew⟩
    -- The first round knows no variants, and a leaf type is looked at again with all of them.
    by_cases hnode : type.text = nodeName
    · exact .inl hnode
    · have := hleaf _ (by rw [if_neg hnode]; rfl)
      exact (typeProblem?_eq_none_iff h).1 (Option.map_eq_none_iff.1 this)
  · rintro ⟨⟨hpair, hkind⟩, hlegal, hnew⟩
    obtain ⟨type, name, hwords, htype, hname, htypeText, hnameText⟩ :=
      hpair.significant hlegal.type.isWord (isWord_of_isName hlegal.name) p
    refine ⟨_, Segment.read_eq_ok_iff.2 ⟨type, name, hwords, htype, hname,
      readField_eq_ok_iff.2 ⟨?_, ?_, ?_, rfl⟩⟩, ?_, ?_⟩
    · rw [htypeText]
      exact typeProblem?_eq_none_iff_alone.2 hlegal.type.nil
    · rw [hnameText]
      exact fieldProblem?_eq_none_iff.2 ⟨hlegal.name, hlegal.ne_variant, hlegal.ne_accept⟩
    · rwa [hnameText]
    · intro l hl
      dsimp only at hl
      split_ifs at hl
      · simp at hl
      · obtain rfl := Option.some.inj hl
        exact Option.map_eq_none_iff.2 ((typeProblem?_eq_none_iff h).2 (htypeText ▸ hlegal.type))
    · rw [Field.classify, htypeText, hnameText, ← hkind]

/-! ## The segments of a declaration -/

/-- Results of reading segments that are without any fault, those of their leaf types included, and
are the given fields. -/
def AreFields (isVariant : String → Bool) (fs : List Field)
    (results : List (Except Fault FieldReading)) : Prop :=
  results.filterMap faultOf? = [] ∧
    (∀ l ∈ (results.filterMap readingOf?).filterMap (·.leaf?), l.fault? isVariant = none) ∧
    (results.filterMap readingOf?).map (·.field.classify) = fs

/-- A result at fault gives no fields. -/
theorem not_areFields_error {isVariant : String → Bool} {fs : List Field} {e : Fault}
    {results : List (Except Fault FieldReading)} :
    ¬AreFields isVariant fs (.error e :: results) := by
  rintro ⟨hfaults, -⟩
  simp [faultOf?] at hfaults

/-- A result without fault gives one field more. -/
theorem areFields_ok_iff {isVariant : String → Bool} {fs : List Field} {r : FieldReading}
    {results : List (Except Fault FieldReading)} :
    AreFields isVariant fs (.ok r :: results) ↔
      ∃ rest, fs = r.field.classify :: rest ∧ (∀ l ∈ r.leaf?, l.fault? isVariant = none) ∧
        AreFields isVariant rest results := by
  unfold AreFields
  have hfault : faultOf? (.ok r) = none := rfl
  have hreading : readingOf? (.ok r) = some r := rfl
  rw [List.filterMap_cons_none hfault, List.filterMap_cons_some hreading, List.map_cons]
  constructor
  · rintro ⟨hfaults, hleaves, rfl⟩
    refine ⟨_, rfl, fun l hl => hleaves l ?_, hfaults, fun l hl => hleaves l ?_, rfl⟩
    · exact List.mem_filterMap.2 ⟨r, List.mem_cons_self, hl⟩
    · obtain ⟨r', hr', hl⟩ := List.mem_filterMap.1 hl
      exact List.mem_filterMap.2 ⟨r', List.mem_cons_of_mem r hr', hl⟩
  · rintro ⟨rest, rfl, hleaf, hfaults, hleaves, rfl⟩
    refine ⟨hfaults, fun l hl => ?_, rfl⟩
    obtain ⟨r', hr', hl'⟩ := List.mem_filterMap.1 hl
    rcases List.mem_cons.1 hr' with rfl | hr'
    · exact hleaf l hl'
    · exact hleaves l (List.mem_filterMap.2 ⟨r', hr', hl'⟩)

/-- Segments are read as fields without any fault exactly when they spell these fields, which are
legal, new and have different names. -/
theorem readSegments_iff {isVariant : String → Bool} {names : List String}
    (h : ∀ n, isVariant n = true ↔ n ∈ names) {i : Nat} {variant : String} {earlier : List String}
    {j : Nat} {separator : Token} {p : Position} {pieces : List (List Char)} {fs : List Field} :
    AreFields isVariant fs
        (readSegments i variant earlier j (Segment.segmentsOf separator p pieces)) ↔
      List.Forall₂ SpellsField pieces fs ∧ (∀ f ∈ fs, f.IsLegal false names variant) ∧
        (fs.map (·.name)).Nodup ∧ ∀ f ∈ fs, f.name ∉ earlier := by
  induction pieces generalizing earlier j separator p fs with
  | nil =>
    rw [Segment.segmentsOf, readSegments]
    constructor
    · rintro ⟨-, -, rfl⟩
      simp
    · rintro ⟨hspell, -⟩
      obtain rfl := List.forall₂_nil_left_iff.1 hspell
      exact ⟨rfl, by simp, rfl⟩
  | cons piece pieces ih =>
    rw [Segment.segmentsOf, readSegments]
    cases hread : Segment.read (.field i j) variant earlier ⟨separator, lexFrom p piece⟩ with
    | error e =>
      refine iff_of_false not_areFields_error ?_
      rintro ⟨hspell, hlegal, -, hnew⟩
      obtain ⟨f, fs, hf, -, rfl⟩ := List.forall₂_cons_left_iff.1 hspell
      obtain ⟨r, hok, -⟩ := (Segment.read_iff h).2
        ⟨hf, hlegal f List.mem_cons_self, hnew f List.mem_cons_self⟩
      rw [hread] at hok
      exact absurd hok (by simp)
    | ok r =>
      -- The name of the field that was read counts as taken for the segments after it.
      rw [areFields_ok_iff]
      constructor
      · rintro ⟨rest, rfl, hleaf, hrest⟩
        obtain ⟨hf, hlegal, hnew⟩ := (Segment.read_iff h).1 ⟨r, hread, hleaf, rfl⟩
        obtain ⟨hspell, hlegals, hfresh⟩ := ih.1 hrest
        exact ⟨.cons hf hspell, List.forall_mem_cons.2 ⟨hlegal, hlegals⟩,
          fresh_cons_iff.2 ⟨hnew, hfresh⟩⟩
      · rintro ⟨hspell, hlegal, hfresh⟩
        obtain ⟨f, fs, hf, hspells, rfl⟩ := List.forall₂_cons_left_iff.1 hspell
        obtain ⟨hnew, hfresh⟩ := fresh_cons_iff.1 hfresh
        rw [List.forall_mem_cons] at hlegal
        obtain ⟨r', hok, hleaf, rfl⟩ := (Segment.read_iff h).2 ⟨hf, hlegal.1, hnew⟩
        rw [hread] at hok
        obtain rfl := Except.ok.inj hok
        exact ⟨fs, rfl, hleaf, ih.2 ⟨hspells, hlegal.2, hfresh⟩⟩

/-! ## A declaration -/

/-- A header is without fault when it is one word that is a legal variant name and no earlier
declaration has it. -/
theorem Declaration.headerFault?_eq_none_iff {names : List (Option String)} {i : Nat}
    {d : Declaration} {head : List Token} {colon : Token} :
    d.headerFault? names i head colon = none ↔
      ∃ t, head = [t] ∧ t.kind = .word ∧ variantProblem? t.text = none ∧
        i ≤ names.idxOf (some t.text) := by
  unfold Declaration.headerFault?
  split
  · simp
  · next t =>
    split_ifs with hkind
    · simp [hkind]
    · split
      · next p hp => simp [hp]
      · next hp =>
        dsimp only
        split_ifs with hfirst
        all_goals simp_all
  · next t ts hlong =>
    refine iff_of_false (by simp) ?_
    rintro ⟨u, hu, -⟩
    exact hlong (List.cons.inj hu).2

/-- A declaration that spells a name before its first colon has that name, if it is legal. -/
theorem Declaration.name?_of_parts {d : Declaration} {t colon : Token} {segments : List Segment}
    (h : d.parts? = some ([t], colon, segments)) (hkind : t.kind = .word)
    (hproblem : variantProblem? t.text = none) : d.name? = some t.text := by
  unfold Declaration.name?
  rw [h]
  simp [hkind, hproblem]

/-- A reading without any fault, one of a leaf type included, that finds the given variant. -/
def Reading.IsVariant (isVariant : String → Bool) (v : Variant) (r : Reading) : Prop :=
  r.faults = [] ∧ (∀ l ∈ r.leaves, l.fault? isVariant = none) ∧ r.variant.classify = v

/-- What is read after the header, when nothing is wrong with that. -/
theorem Declaration.read_isVariant_iff {isVariant : String → Bool} {all : List (Option String)}
    {i : Nat} {d : Declaration} {head : List Token} {colon : Token} {segments : List Segment}
    (hparts : d.parts? = some (head, colon, segments)) {v : Variant} :
    (d.read all i).IsVariant isVariant v ↔
      d.headerFault? all i head colon = none ∧ d.name?.getD "" = v.name ∧
        AreFields isVariant v.fields (readSegments i (d.name?.getD "") [] 0 segments) := by
  unfold Declaration.read Reading.IsVariant AreFields
  rw [hparts]
  dsimp only
  rw [List.append_eq_nil_iff, Option.toList_eq_nil_iff]
  constructor
  · rintro ⟨⟨hheader, hfaults⟩, hleaves, rfl⟩
    refine ⟨hheader, rfl, hfaults, hleaves, ?_⟩
    rw [Variant.classify, List.map_map]
    rfl
  · rintro ⟨hheader, hname, hfaults, hleaves, hfields⟩
    refine ⟨⟨hheader, hfaults⟩, hleaves, ?_⟩
    obtain ⟨name, fields⟩ := v
    dsimp only at hname hfields
    subst hname hfields
    rw [Variant.classify, List.map_map]
    rfl

/-- A legal name before a colon, as the header of a declaration shows it. -/
theorem SpellsName.not_mem_colon {header : List Char} {n : String} (h : SpellsName header n)
    (hn : isName n = true) : ':' ∉ header := by
  obtain ⟨a, b, ha, hb, rfl⟩ := h
  simp [ha.not_mem (.inl rfl), hb.not_mem (.inl rfl), not_mem_of_isName hn (c := ':') (by decide)]

/-- A segment that spells a legal field has no comma in it. -/
theorem SpellsField.not_mem_comma {cs : List Char} {f : Field} (h : SpellsField cs f)
    {names : List String} {variant : String} (hf : f.IsLegal false names variant) : ',' ∉ cs := by
  obtain ⟨⟨a, b, c, ha, hb, -, hc, rfl⟩, -⟩ := h
  have hcomma : continuesIdentifier ',' = false := by decide
  simp [ha.not_mem (.inr rfl), hb.not_mem (.inr rfl), hc.not_mem (.inr rfl),
    not_mem_of_isName hf.name hcomma, hf.type.not_mem hcomma (by decide) (by decide)]

/-- Segments that spell legal fields have no comma in them. -/
theorem not_mem_comma_of_forall₂ {segments : List (List Char)} {fs : List Field}
    (h : List.Forall₂ SpellsField segments fs) {names : List String} {variant : String}
    (hfs : ∀ f ∈ fs, f.IsLegal false names variant) : ∀ cs ∈ segments, ',' ∉ cs := by
  induction h with
  | nil => simp
  | cons hf _ ih =>
    rw [List.forall_mem_cons] at hfs ⊢
    exact ⟨hf.not_mem_comma hfs.1, ih hfs.2⟩

/-- The parts of a declaration that spells a legal variant. -/
theorem Spells.parts {d : String} {v : Variant} (h : Spells d v) {names : List String}
    (hv : v.IsLegal false names) :
    ∃ t colon separator p segments, (Declaration.ofString d).parts? =
        some ([t], colon, Segment.segmentsOf separator p segments) ∧
      t.kind = .word ∧ t.text = v.name ∧ variantProblem? t.text = none ∧
      List.Forall₂ SpellsField segments v.fields := by
  obtain ⟨header, segments, hd, hname, hne, hspell⟩ := h
  have hparts := Declaration.ofString_of_colon hd (hname.not_mem_colon hv.name)
  rw [Text.cutAt_intercalate hne (not_mem_comma_of_forall₂ hspell hv.fields)] at hparts
  obtain ⟨t, ht, hkind, htext⟩ := hname.significant (isWord_of_isName hv.name) .start
  rw [ht] at hparts
  refine ⟨t, _, _, _, segments, hparts, hkind, htext, ?_, hspell⟩
  rw [htext]
  exact variantProblem?_eq_none_iff.2 ⟨hv.name, hv.ne_node, hv.ne_visitor⟩

/-- The header of a declaration that is read without fault. -/
theorem Declaration.header_of_isVariant {isVariant : String → Bool} {all : List (Option String)}
    {i : Nat} {d : Declaration} {v : Variant} (h : (d.read all i).IsVariant isVariant v) :
    ∃ t colon segments, d.parts? = some ([t], colon, segments) ∧ t.text = v.name ∧
      d.name? = some v.name ∧ variantProblem? v.name = none ∧ i ≤ all.idxOf (some v.name) ∧
      AreFields isVariant v.fields (readSegments i v.name [] 0 segments) := by
  rcases hparts : d.parts? with _ | ⟨head, colon, segments⟩
  · have hfaults := h.1
    unfold Declaration.read at hfaults
    rw [hparts] at hfaults
    simp at hfaults
  · obtain ⟨hheader, hname, hfields⟩ := (Declaration.read_isVariant_iff hparts).1 h
    obtain ⟨t, rfl, hkind, hproblem, hfirst⟩ := Declaration.headerFault?_eq_none_iff.1 hheader
    have hname? := Declaration.name?_of_parts hparts hkind hproblem
    rw [hname?, Option.getD_some] at hname hfields
    rw [hname] at hproblem hfirst hfields hname?
    exact ⟨t, colon, segments, rfl, hname, hname?, hproblem, hfirst, hfields⟩

/-- A declaration is read as a variant without any fault exactly when it spells that variant, which
is legal and whose name no earlier declaration has. -/
theorem Declaration.read_iff {isVariant : String → Bool} {names : List String}
    (h : ∀ n, isVariant n = true ↔ n ∈ names) {all : List (Option String)} {i : Nat} {d : String}
    {v : Variant} :
    ((ofString d).read all i).IsVariant isVariant v ↔
      Spells d v ∧ v.IsLegal false names ∧ i ≤ all.idxOf (some v.name) := by
  constructor
  · intro hread
    obtain ⟨t, colon, segments, hparts, htext, -, hproblem, hfirst, hfields⟩ :=
      Declaration.header_of_isVariant hread
    -- Only a declaration with a colon has parts, and these are those of its text.
    have hcolon : ':' ∈ d.toList := by
      by_contra hnot
      rw [ofString_of_not_mem hnot] at hparts
      exact absurd hparts (by simp)
    obtain ⟨header, rest, hd, hpre⟩ := List.eq_append_cons_of_mem hcolon
    rw [ofString_of_colon hd hpre] at hparts
    obtain ⟨hhead, -, rfl⟩ : significant (lexFrom .start header) = [t] ∧ _ ∧ _ = segments := by
      simpa using hparts
    obtain ⟨hspell, hlegal, hnodup, -⟩ := (readSegments_iff h).1 hfields
    obtain ⟨hname, hnode, hvisitor⟩ := variantProblem?_eq_none_iff.1 hproblem
    refine ⟨⟨header, Text.cutAt ',' rest, ?_, ?_, Text.cutAt_ne_nil _ _, hspell⟩,
      ⟨hname, hnode, hvisitor, hlegal, hnodup⟩, hfirst⟩
    · rw [Text.intercalate_cutAt, hd]
    · rw [← htext]
      exact spellsName_of_significant hhead
  · rintro ⟨hspells, hlegal, hfirst⟩
    obtain ⟨t, colon, separator, p, segments, hparts, hkind, htext, hproblem, hspell⟩ :=
      hspells.parts hlegal
    have hname? := Declaration.name?_of_parts hparts hkind hproblem
    rw [Declaration.read_isVariant_iff hparts, hname?, Option.getD_some, htext]
    refine ⟨Declaration.headerFault?_eq_none_iff.2 ⟨t, rfl, hkind, hproblem, ?_⟩, rfl,
      (readSegments_iff h).2 ⟨hspell, hlegal.fields, hlegal.nodup, by simp⟩⟩
    rwa [htext]

/-! ## Lists of declarations -/

/-- There is no fault at all exactly when no reading has one, one of a leaf type included. -/
theorem declarationFaults_eq_nil_iff {decls : List String} :
    declarationFaults decls = [] ↔
      ∀ r ∈ readings decls, r.faults = [] ∧
        ∀ l ∈ r.leaves, l.fault? (declares decls) = none := by
  simp only [declarationFaults, Reading.leafFaults, List.flatMap_eq_nil_iff,
    List.append_eq_nil_iff, List.filterMap_eq_nil_iff]

/-- Reading succeeds exactly when every declaration is read as a variant without fault, and these
variants are the result. -/
theorem parse_eq_ok_iff_readings {failFast : Bool} {decls : List String} {s : Schema} :
    parse failFast decls = .ok s ↔
      decls ≠ [] ∧ List.Forall₂ (fun r v => r.IsVariant (declares decls) v) (readings decls)
        s.variants := by
  have hresult : List.Forall₂ (fun r v => r.IsVariant (declares decls) v) (readings decls)
      s.variants ↔ declarationFaults decls = [] ∧
        Schema.classify ⟨(readings decls).map (·.variant)⟩ = s := by
    unfold Reading.IsVariant
    simp only [← and_assoc]
    rw [List.forall₂_and_left, declarationFaults_eq_nil_iff, ← List.forall₂_map_left_iff,
      List.forall₂_eq_eq_eq]
    obtain ⟨variants⟩ := s
    simp [Schema.classify, Function.comp_def]
  -- Whether there are faults does not depend on how many of them are reported.
  have hempty : (if failFast then (roundFaults decls).take 1
      else declarationFaults decls).isEmpty = true ↔ declarationFaults decls = [] := by
    rw [List.isEmpty_iff]
    split_ifs
    · rw [List.take_eq_nil_iff, or_iff_right (by decide), roundFaults_eq_nil_iff]
    · rfl
  rw [hresult, ← hempty, parse_eq]
  dsimp only
  generalize (if failFast then (roundFaults decls).take 1 else declarationFaults decls) = faults
  cases decls <;> cases faults <;> simp

/-- Declarations whose headers have the names of the variants, one by one. -/
theorem headerNames_eq {decls : List String} {s : Schema}
    (h : List.Forall₂ (fun d v => (Declaration.ofString d).name? = some v.name) decls s.variants) :
    headerNames decls = s.names.map some := by
  rw [← List.forall₂_eq_eq_eq, headerNames, Schema.names, List.map_map,
    List.forall₂_map_left_iff, List.forall₂_map_right_iff]
  exact h

/-- When the headers have the names of the variants, each declaration is read as its variant without
fault exactly when each one spells it and the variants together are a legal schema. -/
theorem readings_iff {decls : List String} {s : Schema}
    (hnames : headerNames decls = s.names.map some) :
    List.Forall₂ (fun r v => r.IsVariant (declares decls) v) (readings decls) s.variants ↔
      List.Forall₂ Spells decls s.variants ∧ s.IsLegal false := by
  -- Leaf types are checked against the names in the headers, which are those of the variants.
  have hdeclares : ∀ n, declares decls n = true ↔ n ∈ s.names := by
    intro n
    rw [declares, hnames, List.contains_iff_mem]
    simp
  have hlength : decls.length = s.variants.length := by
    have := congrArg List.length hnames
    simpa [headerNames, Schema.names] using this
  have hname : ∀ i (h : i < (headerNames decls).length) (hv : i < s.variants.length),
      (headerNames decls)[i] = some s.variants[i].name := by
    simp [hnames, Schema.names]
  -- That no header repeats an earlier one is said for each declaration by itself.
  have hnodup : s.names.Nodup ↔ ∀ i (h : i < s.variants.length),
      i ≤ (headerNames decls).idxOf (some s.variants[i].name) := by
    rw [← List.nodup_map_iff (fun _ _ => Option.some.inj), ← hnames, nodup_iff_le_idxOf]
    have hlength' : (headerNames decls).length = s.variants.length := by
      simp [hnames, Schema.names]
    constructor
    · intro h i hi
      rw [← hname i (hlength' ▸ hi) hi]
      exact h i (hlength' ▸ hi)
    · intro h i hi
      rw [hname i hi (hlength' ▸ hi)]
      exact h i (hlength' ▸ hi)
  rw [readings, List.forall₂_iff_get, List.forall₂_iff_get]
  simp only [List.length_mapIdx, List.get_eq_getElem, List.getElem_mapIdx,
    Declaration.read_iff hdeclares]
  constructor
  · rintro ⟨-, h⟩
    refine ⟨⟨hlength, fun i hd hv => (h i hd hv).1⟩, fun v hv => ?_, hnodup.2 fun i hv => ?_⟩
    · obtain ⟨i, hi, rfl⟩ := List.mem_iff_getElem.1 hv
      exact (h i (hlength ▸ hi) hi).2.1
    · exact (h i (hlength ▸ hv) hv).2.2
  · rintro ⟨⟨-, hspell⟩, hlegal⟩
    exact ⟨hlength, fun i hd hv => ⟨hspell i hd hv, hlegal.variants _ (List.getElem_mem hv),
      hnodup.1 hlegal.nodup i hv⟩⟩

/-- Reading succeeds exactly when there are declarations, each one spells a variant, and the
variants together are a legal schema; this schema is the result. -/
theorem parse_iff {failFast : Bool} {decls : List String} {s : Schema} :
    parse failFast decls = .ok s ↔
      decls ≠ [] ∧ List.Forall₂ Spells decls s.variants ∧ s.IsLegal false := by
  rw [parse_eq_ok_iff_readings]
  -- Either side alone tells the names in the headers, on which both directions depend.
  refine and_congr_right fun _ => ⟨fun h => ?_, fun h => ?_⟩
  · refine (readings_iff (headerNames_eq ?_)).1 h
    rw [readings, List.forall₂_iff_get] at h
    simp only [List.length_mapIdx, List.get_eq_getElem, List.getElem_mapIdx] at h
    refine List.forall₂_iff_get.2 ⟨h.1, fun i hd hv => ?_⟩
    obtain ⟨-, -, -, -, -, hname, -⟩ := Declaration.header_of_isVariant (h.2 i hd hv)
    exact hname
  · obtain ⟨hspells, hlegal⟩ := h
    refine (readings_iff (headerNames_eq ?_)).2 ⟨hspells, hlegal⟩
    rw [List.forall₂_iff_get] at hspells ⊢
    refine ⟨hspells.1, fun i hd hv => ?_⟩
    obtain ⟨t, _, _, _, _, hparts, hkind, htext, hproblem, -⟩ :=
      (hspells.2 i hd hv).parts (hlegal.variants _ (List.get_mem _ _))
    rw [← htext]
    exact Declaration.name?_of_parts hparts hkind hproblem

/-- A schema that was read has variants. -/
theorem variants_ne_nil_of_parse {failFast : Bool} {decls : List String} {s : Schema}
    (h : parse failFast decls = .ok s) : s.variants ≠ [] := by
  obtain ⟨hdecls, hspells, -⟩ := parse_iff.1 h
  intro hnil
  rw [hnil, List.forall₂_nil_right_iff] at hspells
  exact hdecls hspells

/-- The grammar of declarations in full. Reading gives a schema exactly when there is a declaration,
each one spells a variant of that schema, in order, and the names and types in them obey every rule:
the variants have different names, which are neither of the two generic types; the fields of a
variant have different names, which are neither the accepting method nor the variant; and a type is
the node type, or is a name after at most one star that is neither of the two generic types nor the
name of any declaration. -/
theorem parse_eq_ok_iff_spells (failFast : Bool) (decls : List String) (s : Schema) :
    parse failFast decls = .ok s ↔
      decls ≠ [] ∧ List.Forall₂ Spells decls s.variants ∧ s.names.Nodup ∧
        ∀ v ∈ s.variants, isName v.name = true ∧ v.name ≠ nodeName ∧ v.name ≠ visitorName ∧
          (v.fields.map (·.name)).Nodup ∧
          ∀ f ∈ v.fields, isName f.name = true ∧ f.name ≠ acceptName ∧ f.name ≠ v.name ∧
            IsLegalType s.names f.type := by
  rw [parse_iff]
  refine and_congr_right fun _ => and_congr_right fun _ => ⟨fun h => ⟨h.nodup, fun v hv => ?_⟩, ?_⟩
  · obtain ⟨hname, hnode, hvisitor, hfields, hnodup⟩ := h.variants v hv
    refine ⟨hname, hnode, hvisitor, hnodup, fun f hf => ?_⟩
    obtain ⟨htype, hfname, hvariant, haccept⟩ := hfields f hf
    exact ⟨hfname, haccept, hvariant, htype⟩
  · rintro ⟨hnodup, hvariants⟩
    refine ⟨fun v hv => ?_, hnodup⟩
    obtain ⟨hname, hnode, hvisitor, hfnodup, hfields⟩ := hvariants v hv
    refine ⟨hname, hnode, hvisitor, fun f hf => ?_, hfnodup⟩
    obtain ⟨hfname, haccept, hvariant, htype⟩ := hfields f hf
    exact ⟨htype, hfname, hvariant, haccept⟩

end NodeFamily
