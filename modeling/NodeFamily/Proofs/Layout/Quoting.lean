import Mathlib.Data.Bool.AllAny
import Mathlib.Tactic.Ring
import NodeFamily.Layout.Lexeme
import NodeFamily.Text.Quoted

/-!
# Quoted texts as literals

Whatever a text holds, `Text.quote` writes it as a literal of source text. Every character of the
text is written as something that `quoted?` takes in one step, be it the character itself or an
escape (`quoted?_escapeChar`), so that a quoted text is read to its closing quote and no further
(`plainLexeme?_quote`). No line break and no forbidden character is written as itself.
-/

namespace NodeFamily.Layout

open Text (hexDigit hexDigits escapeChar escapeWithin controlLetter? quote)

/-! ## Hexadecimal digits -/

/-- A digit has the value that it was written for. -/
theorem hexValue?_hexDigit {d : Nat} (h : d < 16) : hexValue? (hexDigit d) = some d := by
  have hall : ∀ d < 16, hexValue? (hexDigit d) = some d := by decide
  exact hall d h

/-- The digits of a number, the first one apart. -/
theorem hexDigits_succ (width n : Nat) :
    hexDigits (width + 1) n = hexDigit (n / 16 ^ width % 16) :: hexDigits width n := by
  simp [hexDigits, List.range_succ]

/-- A number has as many digits as asked for. -/
theorem length_hexDigits (width n : Nat) : (hexDigits width n).length = width := by
  simp [hexDigits]

/-- The value of one more digit after others, as `digitsValue?` works it out. -/
def appendDigit (n : Option Nat) (c : Char) : Option Nat := do
  let n ← n
  let d ← hexValue? c
  if d < 16 then some (n * 16 + d) else none

/-- The value of digits after others of the value `m`. -/
theorem foldl_hexDigits (width n m : Nat) :
    (hexDigits width n).foldl appendDigit (some m) = some (m * 16 ^ width + n % 16 ^ width) := by
  induction width generalizing m with
  | zero => simp [hexDigits, Nat.mod_one]
  | succ width ih =>
    have hdigit : n / 16 ^ width % 16 < 16 := Nat.mod_lt _ (by decide)
    have happend : appendDigit (some m) (hexDigit (n / 16 ^ width % 16)) =
        some (m * 16 + n / 16 ^ width % 16) := by
      simp [appendDigit, hexValue?_hexDigit hdigit, hdigit]
    rw [hexDigits_succ, List.foldl_cons, happend, ih, Nat.mod_pow_succ]
    congr 1
    ring

/-- Digits have the value that they were written for. -/
theorem digitsValue?_hexDigits {width n : Nat} (h : n < 16 ^ width) (rest : List Char) :
    digitsValue? 16 width (hexDigits width n ++ rest) = some n := by
  have htake : (hexDigits width n ++ rest).take width = hexDigits width n :=
    List.take_left' (length_hexDigits width n)
  unfold digitsValue?
  rw [htake, length_hexDigits, if_neg (Nat.lt_irrefl width)]
  exact (foldl_hexDigits width n 0).trans (by simp [Nat.mod_eq_of_lt h])

/-! ## Escapes -/

/-- The code of a character is one of a character. -/
theorem isScalarCode_toNat (c : Char) : isScalarCode c.toNat = true := by
  have hvalid : c.toNat < 0xD800 ∨ 0xDFFF < c.toNat ∧ c.toNat < 0x110000 := c.valid
  unfold isScalarCode
  simp only [Bool.and_eq_true, decide_eq_true_eq, Bool.not_eq_true', Bool.and_eq_false_iff,
    decide_eq_false_iff_not]
  omega

/-- The code of a character has at most eight digits. -/
theorem toNat_lt (c : Char) : c.toNat < 16 ^ 8 := by
  have hvalid : c.toNat < 0xD800 ∨ 0xDFFF < c.toNat ∧ c.toNat < 0x110000 := c.valid
  omega

/-- An escape of one letter. -/
theorem escape?_letter {l : Char} (h : l ∈ ['"', 'a', 'b', 'f', 'n', 'r', 't', 'v', '\\'])
    (rest : List Char) : escape? '"' (l :: rest) = some 1 := by
  have hmem : (l == '"' || ['a', 'b', 'f', 'n', 'r', 't', 'v', '\\'].contains l) = true := by
    simpa using h
  exact if_pos hmem

/-- A letter stands for a control character. -/
theorem controlLetter?_mem {c l : Char} (h : controlLetter? c = some l) :
    l ∈ ['"', 'a', 'b', 'f', 'n', 'r', 't', 'v', '\\'] := by
  unfold controlLetter? at h
  split_ifs at h <;> obtain rfl := Option.some.inj h <;> decide

/-- An escape of two digits, one of four and one of eight. -/
theorem escape?_hexDigits {c : Char} (rest : List Char) :
    (c.toNat < 0x100 → escape? '"' ('x' :: hexDigits 2 c.toNat ++ rest) = some 3) ∧
      (c.toNat < 0x10000 → escape? '"' ('u' :: hexDigits 4 c.toNat ++ rest) = some 5) ∧
      escape? '"' ('U' :: hexDigits 8 c.toNat ++ rest) = some 9 := by
  have hx : ∀ cs, escape? '"' ('x' :: cs) = (digitsValue? 16 2 cs).map fun _ => 3 := fun _ => rfl
  have hu : ∀ cs, escape? '"' ('u' :: cs) =
    (digitsValue? 16 4 cs).bind fun n => if isScalarCode n then some 5 else none := fun _ => rfl
  have hU : ∀ cs, escape? '"' ('U' :: cs) =
    (digitsValue? 16 8 cs).bind fun n => if isScalarCode n then some 9 else none := fun _ => rfl
  -- The digits have the code of `c` as their value, which is that of a character.
  refine ⟨fun h => ?_, fun h => ?_, ?_⟩
  · rw [List.cons_append, hx, digitsValue?_hexDigits (by simpa using h), Option.map_some]
  · rw [List.cons_append, hu, digitsValue?_hexDigits (by simpa using h), Option.bind_some,
      isScalarCode_toNat, if_pos rfl]
  · rw [List.cons_append, hU, digitsValue?_hexDigits (toNat_lt c), Option.bind_some,
      isScalarCode_toNat, if_pos rfl]

/-- A character that neither ends a line nor is forbidden. -/
def IsPlainChar (c : Char) : Prop := c ≠ '\n' ∧ isForbidden c = false

instance : DecidablePred IsPlainChar := fun _ => inferInstanceAs (Decidable (_ ∧ _))

/-- A printable character is plain. -/
theorem isPlainChar_of_isPrintable {c : Char} (h : Text.isPrintable c = true) : IsPlainChar c := by
  have hnot : ∀ d ∈ ['\n', '\x00', '\ufeff'], Text.isPrintable d = false :=
    List.all_iff_forall_prop.1 (by decide +kernel)
  have hne : ∀ d ∈ ['\n', '\x00', '\ufeff'], c ≠ d := by
    rintro d hd rfl
    rw [hnot c hd] at h
    exact absurd h (by decide)
  exact ⟨hne _ (by simp), by simp [isForbidden, hne]⟩

/-- The digits of a number are plain. -/
theorem isPlainChar_of_mem_hexDigits {width n : Nat} {c : Char} (h : c ∈ hexDigits width n) :
    IsPlainChar c := by
  have hall : ∀ d < 16, IsPlainChar (hexDigit d) := by decide
  obtain ⟨i, -, rfl⟩ := List.mem_map.1 h
  exact hall _ (Nat.mod_lt _ (by decide))

/-- An escape after its backslash: plain characters that are read to their end. -/
def IsEscape (l : List Char) : Prop :=
  (∀ d ∈ l, IsPlainChar d) ∧ ∀ rest, escape? '"' (l ++ rest) = some l.length

/-- One letter is an escape. -/
theorem isEscape_letter {l : Char} (h : l ∈ ['"', 'a', 'b', 'f', 'n', 'r', 't', 'v', '\\']) :
    IsEscape [l] := by
  have hplain : ∀ d ∈ ['"', 'a', 'b', 'f', 'n', 'r', 't', 'v', '\\'], IsPlainChar d :=
    List.all_iff_forall_prop.1 (by decide)
  exact ⟨by simpa using hplain l h, fun rest => escape?_letter h rest⟩

/-- A mark and digits are an escape when they are read as one. -/
theorem isEscape_hexDigits {mark : Char} {width n : Nat} (hmark : IsPlainChar mark)
    (h : ∀ rest, escape? '"' (mark :: hexDigits width n ++ rest) = some (width + 1)) :
    IsEscape (mark :: hexDigits width n) := by
  refine ⟨List.forall_mem_cons.2 ⟨hmark, fun d => isPlainChar_of_mem_hexDigits⟩, fun rest => ?_⟩
  rw [h rest, List.length_cons, length_hexDigits]

/-- A character is written as itself or as an escape. -/
theorem escapeChar_cases (c : Char) :
    (escapeChar c = [c] ∧ IsPlainChar c ∧ c ≠ '"' ∧ c ≠ '\\') ∨
      ∃ l, escapeChar c = '\\' :: l ∧ IsEscape l := by
  unfold escapeChar escapeWithin
  by_cases hmark : c = '"' ∨ c = '\\'
  · rw [if_pos hmark]
    refine .inr ⟨[c], rfl, isEscape_letter ?_⟩
    rcases hmark with rfl | rfl <;> decide
  rw [if_neg hmark]
  by_cases hprintable : Text.isPrintable c = true
  · rw [if_pos hprintable]
    exact .inl ⟨rfl, isPlainChar_of_isPrintable hprintable, not_or.1 hmark⟩
  rw [if_neg hprintable]
  right
  split
  · next l hl => exact ⟨[l], rfl, isEscape_letter (controlLetter?_mem hl)⟩
  · split
    · exact ⟨_, rfl, isEscape_hexDigits (by decide) fun rest =>
        (escape?_hexDigits rest).1 (by omega)⟩
    · split
      · next hfour =>
        exact ⟨_, rfl, isEscape_hexDigits (by decide) fun rest =>
          (escape?_hexDigits rest).2.1 hfour⟩
      · exact ⟨_, rfl, isEscape_hexDigits (by decide) fun rest => (escape?_hexDigits rest).2.2⟩

/-! ## Quoted texts -/

/-- What is written for a character is plain. -/
theorem isPlainChar_of_mem_escapeChar {c d : Char} (h : d ∈ escapeChar c) : IsPlainChar d := by
  rcases escapeChar_cases c with ⟨hc, hplain, -⟩ | ⟨l, hc, hl, -⟩
  · rw [hc, List.mem_singleton] at h
    exact h ▸ hplain
  · rw [hc] at h
    rcases List.mem_cons.1 h with rfl | h
    · decide
    · exact hl d h

/-- What is written for a character is read in one step. -/
theorem quoted?_escapeChar (c : Char) (fuel count : Nat) (done rest : List Char) :
    quoted? '"' (fuel + 1) count done (escapeChar c ++ rest) =
      quoted? '"' fuel (count + 1) ((escapeChar c).reverse ++ done) rest := by
  rcases escapeChar_cases c with ⟨hc, hplain, hquote, hslash⟩ | ⟨l, hc, -, hl⟩
  · rw [hc, List.singleton_append, quoted?]
    simp [hplain.1, hquote, hslash]
  · rw [hc, List.cons_append, quoted?]
    simp [hl rest]

/-- No character is written as nothing. -/
theorem length_le_flatMap_escapeChar (cs : List Char) :
    cs.length ≤ (cs.flatMap escapeChar).length := by
  induction cs with
  | nil => simp
  | cons c cs ih =>
    have hpos : 0 < (escapeChar c).length := by
      rcases escapeChar_cases c with ⟨hc, -⟩ | ⟨l, hc, -⟩ <;> simp [hc]
    rw [List.flatMap_cons, List.length_append, List.length_cons]
    omega

/-- What is written for a text is read up to the closing quote. -/
theorem quoted?_flatMap_escapeChar {cs : List Char} {fuel : Nat} (h : cs.length < fuel)
    (count : Nat) (done rest : List Char) :
    quoted? '"' fuel count done (cs.flatMap escapeChar ++ '"' :: rest) =
      some (count + cs.length, done.reverse ++ cs.flatMap escapeChar ++ ['"'], rest) := by
  induction cs generalizing fuel count done with
  | nil =>
    cases fuel with
    | zero => exact absurd h (Nat.not_lt_zero _)
    | succ fuel => simp [quoted?]
  | cons c cs ih =>
    cases fuel with
    | zero => exact absurd h (Nat.not_lt_zero _)
    | succ fuel =>
      have hcount : count + 1 + cs.length = count + (cs.length + 1) := by omega
      rw [List.flatMap_cons, List.append_assoc, quoted?_escapeChar, ih (by simpa using h), hcount]
      simp

/-- A quoted text has its characters between two quotes. -/
theorem toList_quote (t : String) :
    (quote t).toList = '"' :: (t.toList.flatMap escapeChar ++ ['"']) := by
  simp [quote]

/-- A quoted text is plain. -/
theorem isPlainChar_of_mem_quote {t : String} {c : Char} (h : c ∈ (quote t).toList) :
    IsPlainChar c := by
  rw [toList_quote, List.mem_cons, List.mem_append, List.mem_singleton] at h
  rcases h with rfl | h | rfl
  · decide
  · obtain ⟨d, -, hd⟩ := List.mem_flatMap.1 h
    exact isPlainChar_of_mem_escapeChar hd
  · decide

/-- A quoted text is read as a literal, whatever follows it. -/
theorem plainLexeme?_quote (t : String) (rest : List Char) :
    plainLexeme? ((quote t).toList ++ rest) =
      some (.literal .text (quote t), (quote t).toList, rest) := by
  -- The reading is bounded by the length of the line, and a quoted text stays on its line.
  have hreach : t.toList.length <
      ((t.toList.flatMap escapeChar ++ '"' :: rest).takeWhile (· != '\n')).length + 1 := by
    have hplain : ∀ c ∈ t.toList.flatMap escapeChar, (c != '\n') = true := by
      intro c hc
      obtain ⟨d, -, hd⟩ := List.mem_flatMap.1 hc
      exact bne_iff_ne.2 (isPlainChar_of_mem_escapeChar hd).1
    have hlength := length_le_flatMap_escapeChar t.toList
    rw [List.takeWhile_append_of_pos hplain, List.length_append]
    omega
  have hopens : opensIdentifier '"' = false := by decide
  have hdigit : ('"'.isDigit || ('"' == '.' &&
    (t.toList.flatMap escapeChar ++ '"' :: rest).head?.any Char.isDigit)) = false := rfl
  rw [toList_quote, List.cons_append, List.append_assoc, List.singleton_append]
  unfold plainLexeme?
  dsimp only
  rw [hopens, hdigit, quoted?_flatMap_escapeChar hreach]
  simp [quote]

end NodeFamily.Layout
