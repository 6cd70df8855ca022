import NodeFamily.Proofs.Emission.Soundness
import NodeFamily.Proofs.Legality
import NodeFamily.Proofs.TitleCase

/-!
# Texts without control characters

A text that holds no control character (`Text.IsUnbroken`) stays on the line that it is put on,
whatever shows it. This file says which parts of a message are such texts: a quoted text is one,
whatever was quoted; a name is one, as it is and in title case; so is the base of a type name, and a
number.

That the tables of characters hold no control characters is read off their spans, which are compared
with the two runs of control characters.
-/

namespace NodeFamily

namespace Text

/-- Whether a character is a control character: one before the space, or one from the mark for
deletion on up to the end of the second run of control characters. -/
def isControl (c : Char) : Bool := c.toNat < 0x20 || (0x7F ≤ c.toNat && c.toNat < 0xA0)

/-- A text holds no control character. -/
def IsUnbroken (s : String) : Prop := ∀ c ∈ s.toList, isControl c = false

instance (s : String) : Decidable (IsUnbroken s) :=
  decidable_of_iff (s.toList.all fun c => !isControl c) (by simp [IsUnbroken])

/-- Two texts make one without control characters when neither has one. -/
theorem IsUnbroken.append {s t : String} (hs : IsUnbroken s) (ht : IsUnbroken t) :
    IsUnbroken (s ++ t) := by
  rw [IsUnbroken, String.toList_append]
  exact List.forall_mem_append.2 ⟨hs, ht⟩

/-- A text without control characters is one line. -/
theorem IsUnbroken.not_mem {s : String} (hs : IsUnbroken s) : '\n' ∉ s.toList :=
  fun hmem => absurd (hs _ hmem) (by decide)

/-! ## Characters -/

/-- A set of characters has a span in neither run of control characters. -/
def CodeSet.missesControls (s : CodeSet) : Bool :=
  missesRun s.spans 0 0x1F && missesRun s.spans 0x7F 0x9F

/-- Neither the tables of characters nor the title forms of several characters hold a control
character. -/
theorem tables_miss_controls :
    (printables.missesControls && letters.missesControls && digits.missesControls) = true ∧
      ∀ entry ∈ titleSequences, ∀ n ∈ entry.2, isControl (Char.ofNat n) = false := by
  decide +kernel

/-- The members of a set without control characters are none. -/
theorem isControl_of_contains {s : CodeSet} (hmisses : s.missesControls = true) {c : Char}
    (h : s.contains c = true) : isControl c = false := by
  obtain ⟨hlow, hhigh⟩ := Bool.and_eq_true_iff.1 hmisses
  rw [CodeSet.contains] at h
  have hnotLow : ¬c.toNat < 0x20 := fun hlt => by
    rw [not_inSpans_of_missesRun hlow (Nat.zero_le _) (by omega)] at h
    exact absurd h Bool.false_ne_true
  have hnotHigh : ¬(0x7F ≤ c.toNat ∧ c.toNat < 0xA0) := fun hrun => by
    rw [not_inSpans_of_missesRun hhigh hrun.1 (by omega)] at h
    exact absurd h Bool.false_ne_true
  simpa [isControl] using And.intro (Nat.not_lt.1 hnotLow) (not_and.1 hnotHigh)

/-- A printable character is no control character. -/
theorem isControl_of_isPrintable {c : Char} (h : isPrintable c = true) : isControl c = false := by
  have htables := tables_miss_controls.1
  simp only [Bool.and_eq_true] at htables
  exact isControl_of_contains htables.1.1 h

/-- A character of an identifier is no control character. -/
theorem isControl_of_continuesIdentifier {c : Char} (h : continuesIdentifier c = true) :
    isControl c = false := by
  have htables := tables_miss_controls.1
  simp only [Bool.and_eq_true] at htables
  simp only [continuesIdentifier, opensIdentifier, Bool.or_eq_true, beq_iff_eq] at h
  rcases h with (hletter | rfl) | hdigit
  · exact isControl_of_contains htables.1.2 hletter
  · decide
  · exact isControl_of_contains htables.2 hdigit

/-! ## Numbers and quoted texts -/

/-- A number has digits only. -/
theorem isUnbroken_toString (n : Nat) : IsUnbroken (toString n) := by
  intro c hc
  have hdigit := isDigit_of_mem_toString hc
  exact isControl_of_continuesIdentifier (Emission.continuesIdentifier_of_isDigit hdigit)

/-- No control character is written as itself between quotes. -/
theorem isControl_of_mem_escapeChar (c : Char) : ∀ d ∈ escapeChar c, isControl d = false := by
  have hdigits (width : Nat) : ∀ d ∈ hexDigits width c.toNat, isControl d = false := by
    have hall : ∀ n < 16, isControl (hexDigit n) = false := by decide
    exact List.forall_mem_map.2 fun i _ => hall _ (Nat.mod_lt _ (by decide))
  unfold escapeChar escapeWithin
  split
  · next hmark =>
    rcases hmark with rfl | rfl
    all_goals exact List.forall_mem_cons.2 ⟨rfl, List.forall_mem_singleton.2 rfl⟩
  split
  · next hprintable => exact List.forall_mem_singleton.2 (isControl_of_isPrintable hprintable)
  split
  · next l hl =>
    have hletters : ∀ l ∈ ['"', 'a', 'b', 'f', 'n', 'r', 't', 'v', '\\'], isControl l = false :=
      List.all_iff_forall_prop.1 (by decide)
    have hletter := hletters l (Layout.controlLetter?_mem hl)
    exact List.forall_mem_cons.2 ⟨rfl, List.forall_mem_singleton.2 hletter⟩
  · split_ifs
    all_goals exact List.forall_mem_cons.2 ⟨rfl, List.forall_mem_cons.2 ⟨rfl, hdigits _⟩⟩

/-- A quoted text has no control characters, whatever was quoted. -/
theorem isUnbroken_quote (s : String) : IsUnbroken (quote s) := by
  rw [IsUnbroken, quote, String.toList_ofList]
  refine List.forall_mem_cons.2 ⟨rfl, List.forall_mem_append.2 ⟨fun d hd => ?_,
    List.forall_mem_singleton.2 rfl⟩⟩
  obtain ⟨c, -, hd⟩ := List.mem_flatMap.1 hd
  exact isControl_of_mem_escapeChar c d hd

end Text

open Text (IsUnbroken isControl)

/-! ## Names -/

/-- The characters of a name continue an identifier. -/
theorem continuesIdentifier_of_mem_name {n : String} (h : isName n = true) {c : Char}
    (hc : c ∈ n.toList) : continuesIdentifier c = true :=
  Emission.continuesIdentifier_of_mem (Emission.isIdentifier_of_isName h) hc

/-- A name has no control characters. -/
theorem isUnbroken_of_isName {n : String} (h : isName n = true) : IsUnbroken n :=
  fun _ hc => Text.isControl_of_continuesIdentifier (continuesIdentifier_of_mem_name h hc)

/-- The title form of a character of an identifier has no control characters. -/
theorem isControl_of_mem_titleChar {c : Char} (hc : continuesIdentifier c = true) :
    ∀ d ∈ Text.titleChar c, isControl d = false := by
  unfold Text.titleChar
  split
  · next form hform =>
    obtain ⟨l₁, l₂, hl, -⟩ := List.lookup_eq_some_iff.1 hform
    exact List.forall_mem_map.2 (Text.tables_miss_controls.2 (c.toNat, form) (by rw [hl]; simp))
  · refine List.forall_mem_singleton.2 (Text.isControl_of_continuesIdentifier ?_)
    rcases opensTitle_apply hc with hself | hopens
    · rwa [hself]
    · rw [continuesIdentifier, (Bool.and_eq_true_iff.1 hopens).1, Bool.true_or]

/-- The identifier under which a field is emitted has no control characters when the field has a
name, although it need not be a name itself. -/
theorem isUnbroken_fieldIdent {n : String} (h : isName n = true) (exported : Bool) :
    IsUnbroken (fieldIdent exported n) := by
  cases exported with
  | false => exact isUnbroken_of_isName h
  | true =>
    have hchars : ∀ c ∈ n.toList, isControl c = false ∧ ∀ d ∈ Text.titleChar c,
        isControl d = false := fun c hc =>
      ⟨isUnbroken_of_isName h c hc,
        isControl_of_mem_titleChar (continuesIdentifier_of_mem_name h hc)⟩
    have htitle := forall_mem_titleFrom hchars false false
    rw [IsUnbroken, fieldIdent, if_pos rfl, Text.titleWords, String.toList_ofList]
    exact htitle

/-- The base of a type name has no control characters. -/
theorem isUnbroken_typeBase {t : String} (h : isTypeName t = true) : IsUnbroken (typeBase t) := by
  have hdot : IsUnbroken "." := by decide
  have hbase := isTypeName_iff.1 h
  generalize typeBase t = base at hbase
  cases hbase with
  | name hn => exact isUnbroken_of_isName hn
  | member hp hn =>
    exact ((isUnbroken_of_isName hp).append hdot).append (isUnbroken_of_isName hn)

end NodeFamily
