import Mathlib.Data.List.DropRight
import NodeFamily.Proofs.FaultColumns
import NodeFamily.Proofs.LexicalRules
import NodeFamily.Proofs.TitleCase

/-!
# What a malformed segment shows

A segment that is not a type and a name is reported with its text. That text has lost the white
space at its ends, of any kind, while the lexer passes over five characters of ASCII only. So there
are segments whose text is a type and a name although they are not: those that are wrapped in white
space which is no spacing (`IsWrapped`). `malformed_shows` says that these are all the segments for
which a report shows what it says is missing, and that each of them is reported so.

Everything rests on two facts: trimming leaves the two words of a segment alone, since none of their
characters is white space (`IsWordText.not_isBlank`), and spacing around a text does not change its
tokens (`showsWords_gaps`).
-/

namespace NodeFamily

open Token (continuesName opensName lexFrom significant)
open Text (isBlank isSpacing trimChars)

/-! ## White space and words -/

/-- White space of any kind and length, none included. -/
def IsBlankText (cs : List Char) : Prop := ∀ c ∈ cs, isBlank c = true

/-- Spacing is white space. -/
theorem isBlank_of_isSpacing {c : Char} (h : isSpacing c = true) : isBlank c = true := by
  simp only [isSpacing, Bool.or_eq_true, beq_iff_eq] at h
  rcases h with (((rfl | rfl) | rfl) | rfl) | rfl <;> decide

/-- A gap is white space. -/
theorem IsGap.isBlankText {cs : List Char} (h : IsGap cs) : IsBlankText cs :=
  fun c hc => isBlank_of_isSpacing (h c hc)

/-- No white space is a letter or a numeral. -/
theorem blanks_miss_names : ∀ b ∈ Text.blanks.spans,
    (missesRun Text.letters.spans b.1 b.2 && missesRun Text.numerals.spans b.1 b.2) = true := by
  decide +kernel

/-- No white space continues a name. -/
theorem not_isBlank_of_continuesName {c : Char} (h : continuesName c = true) :
    isBlank c = false := by
  by_contra hblank
  obtain ⟨b, hb, hlo, hhi⟩ := Text.exists_span_of_inSpans (Bool.not_eq_false _ ▸ hblank)
  obtain ⟨hletters, hnumerals⟩ := Bool.and_eq_true_iff.1 (blanks_miss_names b hb)
  have hletter : Text.isLetter c = false := not_inSpans_of_missesRun hletters hlo hhi
  have hnumeral : Text.isNumeral c = false := not_inSpans_of_missesRun hnumerals hlo hhi
  have hunderscore : c = '_' := by simpa [continuesName, hletter, hnumeral] using h
  rw [hunderscore] at hblank
  exact hblank (by decide)

/-- No character of a name is white space. -/
theorem IsNameRun.not_isBlank {cs : List Char} (h : IsNameRun cs) :
    ∀ c ∈ cs, isBlank c = false := by
  obtain ⟨c, rest, rfl, hc, hrest⟩ := h
  refine List.forall_mem_cons.2 ⟨?_, fun d hd => not_isBlank_of_continuesName (hrest d hd)⟩
  exact not_isBlank_of_continuesName (continuesName_of_opensName hc)

/-- No character of a word is white space. -/
theorem IsWordText.not_isBlank {w : List Char} (h : IsWordText w) :
    ∀ c ∈ w, isBlank c = false := by
  obtain ⟨star, name, tail, rfl, hstar, hname, htail⟩ := h
  refine List.forall_mem_append.2 ⟨?_, List.forall_mem_append.2 ⟨hname.not_isBlank, ?_⟩⟩
  · rcases hstar with rfl | rfl
    · simp
    · exact List.forall_mem_singleton.2 (by decide)
  · rcases htail with rfl | ⟨member, rfl, hmember⟩
    · simp
    · exact List.forall_mem_cons.2 ⟨by decide, hmember.not_isBlank⟩

/-! ## Trimming -/

/-- A text that does not begin or end with white space is what trimming leaves of it with white
space around it. -/
theorem trimChars_append {a core b : List Char} (ha : IsBlankText a) (hb : IsBlankText b)
    (hne : core ≠ []) (hfirst : ∀ c ∈ core.head?, isBlank c = false)
    (hlast : ∀ c ∈ core.getLast?, isBlank c = false) : trimChars (a ++ (core ++ b)) = core := by
  have hfront : (core ++ b).dropWhile isBlank = core ++ b := by
    obtain ⟨c, rest, rfl⟩ := List.exists_cons_of_ne_nil hne
    rw [List.cons_append, List.dropWhile_cons_of_neg (by simp [hfirst c rfl])]
  have hback : core.reverse.dropWhile isBlank = core.reverse := by
    obtain ⟨c, rest, hrest⟩ := List.exists_cons_of_ne_nil (List.reverse_ne_nil_iff.2 hne)
    have hc : c ∈ core.getLast? := by
      rw [← List.head?_reverse, hrest]
      rfl
    rw [hrest, List.dropWhile_cons_of_neg (by simp [hlast c hc])]
  have hreverse : ∀ c ∈ b.reverse, isBlank c = true := fun c hc => hb c (List.mem_reverse.1 hc)
  calc trimChars (a ++ (core ++ b))
      = Text.dropEndWhile isBlank (core ++ b) := by
        rw [trimChars, List.dropWhile_append_of_pos ha, hfront]
    _ = (core.reverse.dropWhile isBlank).reverse := by
        rw [Text.dropEndWhile, List.reverse_append, List.dropWhile_append_of_pos hreverse]
    _ = core := by rw [hback, List.reverse_reverse]

/-- Trimming takes white space from both ends of a text. -/
theorem exists_trimChars (cs : List Char) :
    ∃ a b, cs = a ++ (trimChars cs ++ b) ∧ IsBlankText a ∧ IsBlankText b := by
  refine ⟨cs.takeWhile isBlank, (cs.dropWhile isBlank).rtakeWhile isBlank, ?_,
    fun c hc => List.mem_takeWhile_imp hc, fun c hc => List.mem_rtakeWhile_imp hc⟩
  have hend : trimChars cs ++ (cs.dropWhile isBlank).rtakeWhile isBlank = cs.dropWhile isBlank :=
    List.rdropWhile_append_rtakeWhile
  rw [hend, List.takeWhile_append_dropWhile]

/-! ## Spacing around a text -/

/-- A token that is not spacing does not go into the spacing after a text. -/
theorem front_append_gap {g : List Char} (hg : IsGap g) {c : Char} (hc : isSpacing c = false)
    (rest : List Char) : Token.front c (rest ++ g) = Token.front c rest := by
  have hword : Token.wordExtent (c :: (rest ++ g)) = Token.wordExtent (c :: rest) :=
    Token.wordExtent_append (c :: rest) hg.endsWord
  simp only [Token.front, hword, hc]
  rfl

/-- Spacing after a text does not show. -/
theorem significant_lexFrom_append_gap {g : List Char} (hg : IsGap g) (p : Position)
    (cs : List Char) : significant (lexFrom p (cs ++ g)) = significant (lexFrom p cs) := by
  induction hlength : cs.length using Nat.strongRecOn generalizing p cs with
  | ind n ih =>
    subst hlength
    cases cs with
    | nil =>
      rw [List.nil_append, Token.lexFrom_nil]
      exact Token.significant_lexFrom_eq_nil_iff.2 hg
    | cons c rest =>
      by_cases hc : isSpacing c = true
      · rw [List.cons_append, Token.significant_lexFrom_spacing hc,
          Token.significant_lexFrom_spacing hc, ih rest.length (Nat.lt_succ_self _) _ _ rfl]
      · -- The first token is the same, and the induction is on what it leaves.
        have hc := Bool.eq_false_iff.2 hc
        have hle := Token.front_le c rest
        have hlt : (rest.drop (Token.front c rest).2).length < (c :: rest).length := by
          rw [List.length_drop, List.length_cons]
          omega
        rw [List.cons_append, Token.significant_lexFrom_cons hc, Token.significant_lexFrom_cons hc,
          front_append_gap hg hc, List.take_append_of_le_length hle,
          List.drop_append_of_le_length hle, ih _ hlt _ _ rfl]

/-- Spacing around a text does not change the words that it shows. -/
theorem showsWords_gaps {a cs c : List Char} {t n : String} (ha : IsGap a) (hc : IsGap c) :
    ShowsWords (a ++ (cs ++ c)) t n ↔ ShowsWords cs t n := by
  have hmoved : ShowsWords cs t n ↔ _ := showsWords_iff (Position.start.advance a)
  rw [hmoved, ShowsWords, Token.significant_lexFrom_gap ha, significant_lexFrom_append_gap hc]

/-! ## Segments of two words -/

/-- The two words of a text are words by the rule for them. -/
theorem ShowsWords.isWordText {cs : List Char} {t n : String} (h : ShowsWords cs t n) :
    IsWordText t.toList ∧ IsWordText n.toList := by
  obtain ⟨type, name, hts, htype, hname, rfl, rfl⟩ := h
  have hmem : ∀ u ∈ [type, name], u.kind = .word → IsWordText u.text.toList := by
    intro u hu hkind
    have hallowed := matches_of_mem_lexFrom (List.mem_filter.1 (hts ▸ hu)).1
    rwa [hkind] at hallowed
  exact ⟨hmem type (by simp) htype, hmem name (by simp) hname⟩

/-- Two words with the spacing around them. No white space but spacing stands in such a text, and
without what is around them the words begin and end it. -/
theorem ShowsWords.exists_core {cs : List Char} {t n : String} (h : ShowsWords cs t n) :
    (∀ c ∈ cs, isBlank c = true → isSpacing c = true) ∧
      ∃ a core c, cs = a ++ (core ++ c) ∧ IsGap a ∧ IsGap c ∧ core ≠ [] ∧
        (∀ c ∈ core.head?, isBlank c = false) ∧ ∀ c ∈ core.getLast?, isBlank c = false := by
  -- The text is a gap, a word, a gap, a word and a gap, and only the gaps have white space.
  obtain ⟨htypeWord, hnameWord⟩ := h.isWordText
  obtain ⟨type, name, hts, htype, hname, rfl, rfl⟩ := h
  obtain ⟨a, b, c, hstands, -, -⟩ := exists_standsAs hts htype hname
  have hword : ∀ {w : List Char}, IsWordText w → ∀ x ∈ w, isBlank x = true → isSpacing x = true :=
    fun hw x hx hblank => absurd hblank (by simp [hw.not_isBlank x hx])
  have hgap : ∀ {g : List Char}, IsGap g → ∀ x ∈ g, isBlank x = true → isSpacing x = true :=
    fun hg x hx _ => hg x hx
  refine ⟨?_, a, type.text.toList ++ b ++ name.text.toList, c, ?_, hstands.before, hstands.after,
    ?_, fun x hx => ?_, fun x hx => ?_⟩
  · rw [hstands.text]
    simp only [List.forall_mem_append]
    exact ⟨⟨⟨⟨hgap hstands.before, hword htypeWord⟩, hgap hstands.between⟩, hword hnameWord⟩,
      hgap hstands.after⟩
  · rw [hstands.text]
    simp only [List.append_assoc]
  · simp [htypeWord.ne_nil]
  · rw [List.append_assoc, List.head?_append_of_ne_nil _ htypeWord.ne_nil] at hx
    exact htypeWord.not_isBlank x (List.mem_of_head? hx)
  · rw [List.getLast?_append_of_ne_nil _ hnameWord.ne_nil] at hx
    exact hnameWord.not_isBlank x (List.mem_of_getLast? hx)

/-- Two words in white space that is not all spacing. -/
def IsWrapped (cs : List Char) : Prop :=
  ∃ a m b, cs = a ++ (m ++ b) ∧ IsBlankText a ∧ IsBlankText b ∧ ¬IsGap (a ++ b) ∧
    ∃ t n, ShowsWords m t n

/-- A wrapped text is not two words. -/
theorem IsWrapped.not_showsWords {cs : List Char} (h : IsWrapped cs) :
    ¬∃ t n, ShowsWords cs t n := by
  rintro ⟨t, n, hwords⟩
  obtain ⟨a, m, b, rfl, ha, hb, hgap, -⟩ := h
  -- All white space in two words is spacing, and the wrapping is white space in them.
  obtain ⟨hspacing, -⟩ := hwords.exists_core
  refine hgap (List.forall_mem_append.2 ⟨fun c hc => ?_, fun c hc => ?_⟩)
  · exact hspacing c (by simp [hc]) (ha c hc)
  · exact hspacing c (by simp [hc]) (hb c hc)

/-- What trimming leaves of a text is two words when the text is, or when it is wrapped. -/
theorem showsWords_trimChars_iff {cs : List Char} :
    (∃ t n, ShowsWords (trimChars cs) t n) ↔ (∃ t n, ShowsWords cs t n) ∨ IsWrapped cs := by
  -- Two words are all that trimming leaves of them, whatever white space is around.
  have hcore : ∀ {a m b : List Char} {t n : String}, IsBlankText a → IsBlankText b →
      ShowsWords m t n → ShowsWords (trimChars (a ++ (m ++ b))) t n := by
    intro a m b t n ha hb hwords
    obtain ⟨-, g, core, g', rfl, hg, hg', hne, hfirst, hlast⟩ := hwords.exists_core
    have htrim : trimChars (a ++ (g ++ (core ++ g') ++ b)) = core :=
      calc trimChars (a ++ (g ++ (core ++ g') ++ b))
          = trimChars ((a ++ g) ++ (core ++ (g' ++ b))) := by simp only [List.append_assoc]
        _ = core := trimChars_append (List.forall_mem_append.2 ⟨ha, hg.isBlankText⟩)
            (List.forall_mem_append.2 ⟨hg'.isBlankText, hb⟩) hne hfirst hlast
    rw [htrim]
    exact (showsWords_gaps hg hg').1 hwords
  constructor
  · rintro ⟨t, n, hwords⟩
    obtain ⟨a, b, hcs, ha, hb⟩ := exists_trimChars cs
    by_cases hgap : IsGap (a ++ b)
    · obtain ⟨hga, hgb⟩ := List.forall_mem_append.1 hgap
      rw [hcs]
      exact .inl ⟨t, n, (showsWords_gaps hga hgb).2 hwords⟩
    · exact .inr ⟨a, trimChars cs, b, hcs, ha, hb, hgap, t, n, hwords⟩
  · rintro (⟨t, n, hwords⟩ | ⟨a, m, b, rfl, ha, hb, -, t, n, hwords⟩)
    · have hnone : IsBlankText [] := by simp [IsBlankText]
      have hshown := hcore hnone hnone hwords
      rw [List.nil_append, List.append_nil] at hshown
      exact ⟨t, n, hshown⟩
    · exact ⟨t, n, hcore ha hb hwords⟩

/-! ## Reports -/

/-- A fault of a header is not one of a malformed segment. -/
theorem code_of_headerFault? {names : List (Option String)} {i : Nat} {d : Declaration}
    {head : List Token} {colon : Token} {f : Fault}
    (h : d.headerFault? names i head colon = some f) : f.code ≠ .malformedField := by
  unfold Declaration.headerFault? Declaration.notSingle at h
  split at h
  · obtain rfl := Option.some.inj h
    simp
  · split_ifs at h
    · obtain rfl := Option.some.inj h
      simp
    · split at h
      · obtain rfl := Option.some.inj h
        simp
      · dsimp only at h
        split_ifs at h
        obtain rfl := Option.some.inj h
        simp
  · obtain rfl := Option.some.inj h
    simp

/-- Only a segment that is not two words is malformed. -/
theorem BlamesAfter.not_showsWords {decls : List String} {d : String} {j : Nat} {cs : List Char}
    {f : Fault} {after : List Char} (h : BlamesAfter decls d j cs f after)
    (hcode : f.code = .malformedField) : ¬∃ t n, ShowsWords cs t n := by
  cases h with
  | blank _ hgap =>
    rintro ⟨t, n, type, name, hts, -⟩
    rw [Token.significant_lexFrom_eq_nil_iff.2 hgap] at hts
    exact absurd hts (by simp)
  | malformed _ hwords => exact hwords
  | type hother => exact absurd (hcode.symm.trans hother) (by simp)
  | name hother => exact absurd (hcode.symm.trans hother) (by simp)
  | repeated hother => exact absurd (hcode.symm.trans hother) (by simp)

/-- A fault shows segment `j` of declaration `i` as malformed: the segment is not two words, and the
fault has its text without white space at the ends. -/
structure Fault.ShowsMalformed (f : Fault) (decls : List String) (i j : Nat) (d : String)
    (cs : List Char) : Prop where
  /-- The declaration. -/
  decl : decls[i]? = some d
  /-- The segment in it. -/
  segment : (segmentTexts d)[j]? = some cs
  /-- The segment is not two words. -/
  malformed : ¬∃ t n, ShowsWords cs t n
  /-- The place of the fault. -/
  place : f.place = .field i j
  /-- The text of the fault. -/
  text : f.text = Text.trim (String.ofList cs)
  /-- What the message says. -/
  detail : f.detail = "expected \"Type name\", got " ++ Text.quote f.text

/-- The fault of a segment that is not two words shows it. -/
theorem showsMalformed_malformed {decls : List String} {i j : Nat} {d : String} {cs : List Char}
    (hd : decls[i]? = some d) (hcs : (segmentTexts d)[j]? = some cs)
    (hwords : ¬∃ t n, ShowsWords cs t n) (separator : Token) (p : Position) :
    (Segment.malformed (.field i j) ⟨separator, lexFrom p cs⟩).ShowsMalformed decls i j d cs where
  decl := hd
  segment := hcs
  malformed := hwords
  place := rfl
  text := Segment.text_lexFrom separator p cs
  detail := rfl

/-- A fault of a malformed segment among those of a declaration shows that segment. -/
theorem exists_showsMalformed {decls : List String} {i : Nat} {d : String}
    (hd : decls[i]? = some d) {f : Fault} (hf : f ∈ faultsOf decls i d)
    (hcode : f.code = .malformedField) : ∃ j cs, f.ShowsMalformed decls i j d cs := by
  have hlocated := isLocated_of_mem_faultsOf hd hf
  by_cases hcolon : ':' ∈ d.toList
  · rcases (mem_faultsOf_iff hcolon).1 hf with hheader | ⟨r, hr, hfault⟩
    · exact absurd hcode (code_of_headerFault? hheader)
    · obtain ⟨j, hj⟩ := List.mem_iff_getElem?.1 hr
      have hplace : f.place = .field i j := by
        obtain ⟨names, s, hread⟩ := exists_read_of_getElem? hj
        rw [← hread] at hfault
        rw [hfault.place, Nat.zero_add]
      rw [Fault.IsLocated, hplace] at hlocated
      obtain ⟨d', cs, after, hd', hcs, -, -, hblames, -⟩ := hlocated
      obtain rfl : d = d' := Option.some.inj (hd.symm.trans hd')
      have hwords := hblames.not_showsWords hcode
      -- The segment is read for its place, and what it is reported with is the fault.
      obtain ⟨names, separator, -, -, hread⟩ := exists_readSegments_textBefore i hcs
      rw [hread] at hj
      obtain rfl := Option.some.inj hj
      rw [read_of_not_showsWords hwords] at hfault
      obtain rfl : _ = f := by simpa [IsFaultOf, faultOf?, readingOf?] using hfault
      exact ⟨j, cs, showsMalformed_malformed hd hcs hwords separator _⟩
  · rw [faultsOf_of_not_mem hcolon] at hf
    obtain rfl := List.mem_singleton.1 hf
    exact absurd hcode (by simp)

/-- Each segment that is not two words is reported. -/
theorem exists_mem_faultsOf {decls : List String} {i j : Nat} {d : String} {cs : List Char}
    (hd : decls[i]? = some d) (hcs : (segmentTexts d)[j]? = some cs)
    (hwords : ¬∃ t n, ShowsWords cs t n) :
    ∃ f ∈ faultsOf decls i d, f.code = .malformedField ∧ f.ShowsMalformed decls i j d cs := by
  have hcolon := colon_of_segmentTexts hcs
  obtain ⟨names, separator, -, -, hread⟩ := exists_readSegments_textBefore i hcs
  rw [read_of_not_showsWords hwords] at hread
  refine ⟨_, (mem_faultsOf_iff hcolon).2 (.inr ⟨_, List.mem_of_getElem? hread, .inl rfl⟩), rfl, ?_⟩
  exact showsMalformed_malformed hd hcs hwords separator _

/-- What reports of malformed segments show. Each of them shows a segment that is not two words, and
what it shows is two words, alone, exactly when the segment is two words that are wrapped in white
space other than spacing. Each segment that is so wrapped is reported in this way. -/
theorem malformed_shows (decls : List String) :
    (∀ failFast faults, parse failFast decls = .error faults → ∀ f ∈ faults,
      f.code = .malformedField → ∃ i j d cs, f.ShowsMalformed decls i j d cs ∧
        ((∃ t n, ShowsWords f.text.toList t n) ↔ IsWrapped cs)) ∧
      ∀ i j d cs, decls[i]? = some d → (segmentTexts d)[j]? = some cs → IsWrapped cs →
        ∃ faults, parse false decls = .error faults ∧ ∃ f ∈ faults, f.code = .malformedField ∧
          f.ShowsMalformed decls i j d cs := by
  constructor
  · intro failFast faults hparse f hf hcode
    have hne : decls ≠ [] := by
      rintro rfl
      obtain rfl : faults = [noDeclarations] := by simpa [parse] using hparse.symm
      obtain rfl := List.mem_singleton.1 hf
      exact absurd hcode (by decide)
    obtain ⟨i, d, hd, hmem⟩ :=
      (mem_reportedFaults_iff hne).1 (mem_reportedFaults_of_parse hparse hf)
    obtain ⟨j, cs, hshows⟩ := exists_showsMalformed hd hmem hcode
    refine ⟨i, j, d, cs, hshows, ?_⟩
    rw [hshows.text, Text.trim, String.toList_ofList, String.toList_ofList,
      showsWords_trimChars_iff, or_iff_right hshows.malformed]
  · intro i j d cs hd hcs hwrapped
    obtain ⟨f, hmem, hcode, hshows⟩ := exists_mem_faultsOf hd hcs hwrapped.not_showsWords
    have hne : decls ≠ [] := by
      rintro rfl
      simp at hd
    have hreported := (mem_reportedFaults_iff hne).2 ⟨i, d, hd, hmem⟩
    unfold reportedFaults at hreported
    cases hparse : parse false decls with
    | ok s => simp [hparse] at hreported
    | error faults =>
      rw [hparse] at hreported
      exact ⟨faults, rfl, f, hreported, hcode, hshows⟩

/-- A type and a name between an em space and a vertical tab are reported, and shown as a type and a
name. -/
theorem malformed_shows_wrapped :
    let decls := ["A : Expr e,\u2003 *a.T x\u000b"]
    ∃ faults, parse false decls = .error faults ∧ ∃ f ∈ faults, f.code = .malformedField ∧
      f.place = .field 0 1 ∧ ∃ t n, ShowsWords f.text.toList t n := by
  intro decls
  have hsegment : (segmentTexts "A : Expr e,\u2003 *a.T x\u000b")[1]? =
      some ("\u2003 ".toList ++ ("*a.T x".toList ++ "\u000b".toList)) := by decide +kernel
  have hblank : IsBlankText "\u2003 ".toList ∧ IsBlankText "\u000b".toList :=
    ⟨List.all_iff_forall_prop.1 (by decide +kernel), List.all_iff_forall_prop.1 (by decide +kernel)⟩
  have hgap : ¬IsGap ("\u2003 ".toList ++ "\u000b".toList) := fun hgap =>
    absurd (hgap '\u2003' (by decide)) (by decide)
  have hwords : ShowsWords "*a.T x".toList "*a.T" "x" :=
    ⟨⟨.word, "*a.T", ⟨0, 1⟩⟩, ⟨.word, "x", ⟨5, 6⟩⟩, by decide +kernel, rfl, rfl, rfl, rfl⟩
  have hwrapped : IsWrapped ("\u2003 ".toList ++ ("*a.T x".toList ++ "\u000b".toList)) :=
    ⟨_, _, _, rfl, hblank.1, hblank.2, hgap, _, _, hwords⟩
  obtain ⟨hshown, hreported⟩ := malformed_shows decls
  obtain ⟨faults, hparse, f, hf, hcode, hshows⟩ := hreported 0 1 _ _ rfl hsegment hwrapped
  -- The fault shows the segment at its place, which is the wrapped one.
  obtain ⟨i, j, d, cs, hshows', hiff⟩ := hshown false faults hparse f hf hcode
  obtain ⟨rfl, rfl⟩ : i = 0 ∧ j = 1 := by
    simpa using hshows'.place.symm.trans hshows.place
  obtain rfl := Option.some.inj (hshows'.decl.symm.trans hshows.decl)
  obtain rfl := Option.some.inj (hshows'.segment.symm.trans hshows.segment)
  exact ⟨faults, hparse, f, hf, hcode, hshows.place, hiff.2 hwrapped⟩

/-- A no-break space after a type and a name: the report says that a type and a name are expected,
and shows just these. -/
theorem malformed_shows_words :
    ∃ f, parse true ["A : Token t\u00a0"] = .error [f] ∧ f.code = .malformedField ∧
      f.detail = "expected \"Type name\", got \"Token t\"" ∧ f.text = "Token t" ∧
      ShowsWords f.text.toList "Token" "t" := by
  refine ⟨⟨.malformedField, .field 0 0, some 5, "Token t",
    "expected \"Type name\", got \"Token t\""⟩, by decide +kernel, rfl, rfl, rfl,
    ⟨.word, "Token", ⟨0, 1⟩⟩, ⟨.word, "t", ⟨6, 7⟩⟩, by decide +kernel, rfl, rfl, rfl, rfl⟩

end NodeFamily
