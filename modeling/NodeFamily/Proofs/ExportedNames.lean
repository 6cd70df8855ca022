import NodeFamily.Proofs.Emission.Refusal

/-!
# Which exported names are identifiers

A schema without faults need not lead to a file once its field names are put into title case: the
check looks at the names as they are written, and a name in title case may have a mark in it that
continues no identifier. This happens with 32 small letters and nowhere else
(`isIdentifier_titleWords_iff`), so that the names which make the file impossible can be read off
the schema (`generateSchema_exported`).
-/

namespace NodeFamily

open Text (Boundary titleSequences titleChar titleFrom titleWords)

/-! ## Letters -/

/-- The letters whose title form has a mark that continues no identifier: a Latin letter with a mark
below or above it, and Greek letters with marks that no capital has in one piece. -/
def tornLetters : List Nat := [
  0x1F0, 0x390, 0x3B0, 0x1E96, 0x1E97, 0x1E98, 0x1E99, 0x1F50, 0x1F52, 0x1F54, 0x1F56, 0x1FB2,
  0x1FB4, 0x1FB6, 0x1FB7, 0x1FC2, 0x1FC4, 0x1FC6, 0x1FC7, 0x1FD2, 0x1FD3, 0x1FD6, 0x1FD7, 0x1FE2,
  0x1FE3, 0x1FE4, 0x1FE6, 0x1FE7, 0x1FF2, 0x1FF4, 0x1FF6, 0x1FF7]

/-- Whether all characters of a text continue an identifier. -/
def AllContinue (cs : List Char) : Prop := ∀ c ∈ cs, continuesIdentifier c = true

/-- Of the title forms of several characters, those of the torn letters have a character that
continues no identifier, and the others have none. -/
theorem sequences_torn : ∀ entry ∈ titleSequences,
    (entry.2.all fun n => continuesIdentifier (Char.ofNat n)) = !tornLetters.contains entry.1 := by
  decide +kernel

/-- The torn letters have title forms of several characters. -/
theorem torn_titles : ∀ n ∈ tornLetters, (titleSequences.lookup n).isSome = true := by
  decide +kernel

/-- The title form of a character that continues an identifier does so too, unless the character is
a torn letter. -/
theorem allContinue_titleChar_iff {c : Char} (hc : continuesIdentifier c = true) :
    AllContinue (titleChar c) ↔ c.toNat ∉ tornLetters := by
  unfold titleChar
  split
  · next form hform =>
    obtain ⟨l₁, l₂, hl, -⟩ := List.lookup_eq_some_iff.1 hform
    have htorn := sequences_torn (c.toNat, form) (by rw [hl]; simp)
    rw [Bool.eq_iff_iff, List.all_eq_true, Bool.not_eq_true', List.contains_eq_mem,
      decide_eq_false_iff_not] at htorn
    rw [← htorn, AllContinue, List.forall_mem_map]
  · next hnone =>
    have hnot : c.toNat ∉ tornLetters := by
      intro hmem
      have hsome := torn_titles c.toNat hmem
      rw [hnone] at hsome
      exact absurd hsome (by decide)
    refine iff_of_true (List.forall_mem_singleton.2 ?_) hnot
    rcases opensTitle_apply hc with hself | hopens
    · rwa [hself]
    · rw [continuesIdentifier, (Bool.and_eq_true_iff.1 hopens).1, Bool.true_or]

/-! ## Names -/

/-- The characters that are put into title case: the first cased one of each word. `inWord` and
`afterMid` are as for `titleFrom`. -/
def openersFrom (inWord afterMid : Bool) : List Char → List Char
  | [] => []
  | c :: rest =>
    let inWord := inWord && !(afterMid && Boundary.of c == .mid)
    match Boundary.of c with
    | .cased => (if inWord then [] else [c]) ++ openersFrom true false rest
    | .joins => openersFrom inWord false rest
    | .mid => openersFrom inWord true rest
    | .breaks => openersFrom false false rest

/-- The first cased characters of the words of a text. -/
def openers (s : String) : List Char := openersFrom false false s.toList

/-- The title form of a text of an identifier continues one, unless a torn letter is put into title
case. -/
theorem allContinue_titleFrom_iff {cs : List Char} (hcs : AllContinue cs)
    (inWord afterMid : Bool) : AllContinue (titleFrom inWord afterMid cs) ↔
      ∀ c ∈ openersFrom inWord afterMid cs, c.toNat ∉ tornLetters := by
  induction cs generalizing inWord afterMid with
  | nil => simp [titleFrom, openersFrom, AllContinue]
  | cons c cs ih =>
    obtain ⟨hc, hcs⟩ := List.forall_mem_cons.1 hcs
    have hself : ∀ rest, AllContinue (c :: rest) ↔ AllContinue rest := fun rest =>
      List.forall_mem_cons.trans (and_iff_right hc)
    rw [titleFrom, openersFrom]
    cases hclass : Boundary.of c with
    | cased =>
      dsimp only
      rw [AllContinue, List.forall_mem_append, List.forall_mem_append]
      refine and_congr ?_ (ih hcs _ _)
      split_ifs
      · exact iff_of_true (List.forall_mem_singleton.2 hc) (by simp)
      · rw [List.forall_mem_singleton]
        exact allContinue_titleChar_iff hc
    | joins => exact (hself _).trans (ih hcs _ _)
    | mid => exact (hself _).trans (ih hcs _ _)
    | breaks => exact (hself _).trans (ih hcs _ _)

/-- A name in title case is an identifier exactly when no word of it opens with a torn letter. -/
theorem isIdentifier_titleWords_iff {n : String} (h : isName n = true) :
    isIdentifier (titleWords n) = true ↔ ∀ c ∈ openers n, c.toNat ∉ tornLetters := by
  obtain ⟨c, rest, hn, hopens, hall⟩ :=
    Layout.exists_of_hasIdentifierShape (hasIdentifierShape_of_isName h)
  obtain ⟨d, out, htitle, hd⟩ := opensTitle_titleFrom hopens rest
  rw [openers, ← allContinue_titleFrom_iff hall false false]
  constructor
  · intro hident e he
    exact Emission.continuesIdentifier_of_mem hident (by rwa [titleWords, String.toList_ofList])
  · intro hcont
    rw [titleWords, hn, htitle]
    rw [hn, htitle] at hcont
    exact isIdentifier_of_opensTitle hd (List.forall_mem_cons.1 hcont).2

/-- A sharp s, an n after an apostrophe and the ligature of f and i have title forms of several
letters, which are identifiers, and a j with a caron has none that is one. -/
example : (["ßa", "ŉ", "ﬁx", "a_ǰ", "ǰ", "ΐ"].map fun n => isIdentifier (titleWords n)) =
    [true, true, true, true, false, false] := by decide +kernel

/-! ## Generated files -/

/-- The fields of a plain file are emitted as identifiers. -/
theorem isIdentifier_fieldIdent_of_isPlain {o : Options} {s : Schema}
    (h : (o.file s).isPlain = true) {v : Variant} (hv : v ∈ s.variants) {f : Field}
    (hf : f ∈ v.fields) : isIdentifier (fieldIdent o.exportFields f.name) = true := by
  have hvariants := (Bool.and_eq_true_iff.1 h).2
  have hplain : Emission.isPlainVariant o.exportFields v.classify = true :=
    List.all_eq_true.1 hvariants _ (List.mem_map_of_mem hv)
  have hfields := (Bool.and_eq_true_iff.1 hplain).2
  have hfield : Emission.isPlainField o.exportFields f.classify = true :=
    List.all_eq_true.1 hfields _ (List.mem_map_of_mem hf)
  exact (Bool.and_eq_true_iff.1 (Bool.and_eq_true_iff.1 hfield).1).2

/-- What becomes of a schema that passes the check with its field names in title case, when the
package is an identifier and the generator is named by a text without a line break, a null character
or a byte-order mark. A field is emitted under an identifier exactly when no word of its name opens with
a torn letter; when this holds of all fields and there are variants, a file is generated, and when
it fails for some field, the text of the file cannot be laid out. -/
theorem generateSchema_exported {o : Options} {s : Schema} (hexported : o.exportFields = true)
    (hfaults : s.faults true = [])
    (hpackage : o.package = "" ∨ isIdentifier o.package = true)
    {name : String} (hname : o.generator.text? = some name)
    (hgenerator : ∀ c ∈ name.toList, c ≠ '\n' ∧ c ≠ '\x00' ∧ c ≠ '\ufeff') :
    (∀ v ∈ s.variants, ∀ f ∈ v.fields, (isIdentifier (fieldIdent true f.name) = true ↔
        ∀ c ∈ openers f.name, c.toNat ∉ tornLetters)) ∧
      (s.variants ≠ [] →
        (∀ v ∈ s.variants, ∀ f ∈ v.fields, ∀ c ∈ openers f.name, c.toNat ∉ tornLetters) →
          ∃ code, generateSchema o (some s) = .ok code) ∧
      ((∃ v ∈ s.variants, ∃ f ∈ v.fields, ∃ c ∈ openers f.name, c.toNat ∈ tornLetters) →
        generateSchema o (some s) = .error .unformattable) := by
  have hlegal := Schema.faults_eq_nil_iff.1 hfaults
  have hident : ∀ v ∈ s.variants, ∀ f ∈ v.fields, (isIdentifier (fieldIdent true f.name) = true ↔
      ∀ c ∈ openers f.name, c.toNat ∉ tornLetters) := fun v hv f hf =>
    isIdentifier_titleWords_iff ((hlegal.variants v hv).fields f hf).name
  rw [← hexported] at hfaults
  refine ⟨hident, fun hne hnone => ?_, ?_⟩
  · have hplain : (o.file s).isPlain = true := by
      refine isPlain_file hlegal (fun v hv f hf => ?_) hpackage hname hgenerator
      rw [hexported]
      exact (hident v hv f hf).2 (hnone v hv f hf)
    exact ⟨_, generateSchema_of_isPlain hne hfaults hplain⟩
  · rintro ⟨v, hv, f, hf, c, hc, htorn⟩
    have hbreak : '\n' ∉ o.generator.toList := by
      rw [Text.Raw.toList, Text.Raw.shown_eq hname]
      exact fun hmem => (hgenerator _ hmem).1 rfl
    refine generateSchema_of_format?_eq_none (List.ne_nil_of_mem hv) hfaults hpackage
      (format?_draft_of_not_isPlain (Schema.faults_eq_nil_iff.1 hfaults) hpackage hbreak ?_)
    rw [← Bool.not_eq_true]
    intro hplain
    have hemitted := isIdentifier_fieldIdent_of_isPlain hplain hv hf
    rw [hexported] at hemitted
    exact (hident v hv f hf).1 hemitted c hc htorn

/-- A field whose words open with a sharp s and with a torn letter in lower case only, and a field
that opens with the torn letter: the check passes both, and there is a file for the first and none
for the second. -/
theorem generateSchema_exported_caron :
    let o : Options := { exportFields := true }
    let s : Schema := ⟨[⟨"A", [⟨"T", "ßa_ǰ", .leaf⟩]⟩]⟩
    let torn : Schema := ⟨[⟨"A", [⟨"T", "ǰa", .leaf⟩]⟩]⟩
    s.faults true = [] ∧ torn.faults true = [] ∧ (∃ code, generateSchema o (some s) = .ok code) ∧
      generateSchema o (some torn) = .error .unformattable := by
  intro o s torn
  have hs : s.faults true = [] := by decide +kernel
  have htorn : torn.faults true = [] := by decide +kernel
  have hgenerator : ∀ c ∈ "".toList, c ≠ '\n' ∧ c ≠ '\x00' ∧ c ≠ '\ufeff' := by simp
  have hname : o.generator.text? = some "" := Text.Raw.text?_ofString ""
  have hsharp : openers "ßa_ǰ" = ['ß'] := by decide +kernel
  have hcaron : openers "ǰa" = ['ǰ'] := by decide +kernel
  refine ⟨hs, htorn, ?_, ?_⟩
  · refine (generateSchema_exported (o := o) rfl hs (.inl rfl) hname hgenerator).2.1 (by decide) ?_
    simp only [s, List.forall_mem_singleton, hsharp]
    decide
  · refine (generateSchema_exported (o := o) rfl htorn (.inl rfl) hname hgenerator).2.2 ?_
    exact ⟨_, List.mem_singleton_self _, _, List.mem_singleton_self _, 'ǰ', by simp [hcaron],
      by decide⟩

/-- A schema without faults whose field, an iota with two marks, is no identifier in title case, so
that there is no file for it. -/
theorem generateSchema_iota :
    let s : Schema := ⟨[⟨"A", [⟨"T", "ΐ", .leaf⟩]⟩]⟩
    s.faults true = [] ∧ isIdentifier (fieldIdent true "ΐ") = false ∧
      generateSchema { exportFields := true } (some s) = .error .unformattable := by
  intro s
  have hs : s.faults true = [] := by decide +kernel
  have hlayout : Layout.format? (Options.file { exportFields := true } s).draft = none :=
    format?_draft_of_not_isPlain (Schema.faults_eq_nil_iff.1 hs) (.inl rfl) (by decide)
      (by decide +kernel)
  exact ⟨hs, by decide +kernel,
    generateSchema_of_format?_eq_none (by decide) hs (.inl rfl) hlayout⟩

end NodeFamily
