import Mathlib.Data.List.DropRight
import Mathlib.Data.List.Forall2
import Mathlib.Data.List.TakeWhile
import NodeFamily.SchemaDump
import NodeFamily.SchemaFile.Json

/-!
# Reading JSON

A reader of JSON documents that knows nothing of how they were written. It reads the values that a
schema is made of: texts, lists and objects (`JsonValue`). White space may stand around every sign,
and a text may hold any escape, but no control character and no quote as itself.

A reader `one` of some items is judged by the texts that it reads, whatever follows them
(`ReadsAs`). What is read between brackets is then known from the items alone
(`enclosed?_intercalate`), and a text is read as it was before it was written (`text?_string`).
-/

namespace NodeFamily

/-- A value of JSON, other than a number and the three words. -/
inductive JsonValue
  /-- A text. -/
  | text (s : String)
  /-- A list of values. -/
  | list (items : List JsonValue)
  /-- Values with keys, in the order of the document. -/
  | object (members : List (String × JsonValue))

namespace JsonValue

open Json (isSpace escaped? isHighSurrogate isLowSurrogate unitChar)

/-! ## Texts -/

/-- The code unit that four hexadecimal digits write, and what follows them. -/
def unit? : List Char → Option (Nat × List Char)
  | a :: b :: c :: d :: rest => (Text.hexNumber? [a, b, c, d]).map fun n => (n, rest)
  | _ => none

/-- The second half of a surrogate pair that stands in front as an escape, and what follows it. -/
def secondHalf? : List Char → Option (Nat × List Char)
  | '\\' :: 'u' :: rest => (unit? rest).filter fun p => isLowSurrogate p.1
  | _ => none

/-- The character that an escape stands for after its backslash, and what follows it. -/
def escape? : List Char → Option (Char × List Char)
  | 'u' :: rest => (unit? rest).map fun (n, rest) =>
    match isHighSurrogate n, secondHalf? rest with
    | true, some (m, rest) => (Char.ofNat (0x10000 + (n - 0xD800) * 0x400 + (m - 0xDC00)), rest)
    | _, _ => (unitChar n, rest)
  | c :: rest => (escaped? c).map fun c => (c, rest)
  | [] => none

/-- The first character of a text, and what follows it. -/
def char? : List Char → Option (Char × List Char)
  | '\\' :: rest => escape? rest
  | c :: rest => if c.toNat < 0x20 ∨ c = '"' then none else some (c, rest)
  | [] => none

/-- The characters of a text up to its closing quote, and what follows that. -/
def chars? : (fuel : Nat) → List Char → Option (List Char × List Char)
  | 0, _ => none
  | _ + 1, '"' :: rest => some ([], rest)
  | fuel + 1, cs => (char? cs).bind fun (c, rest) =>
    (chars? fuel rest).map fun (cs, rest) => (c :: cs, rest)

/-- A text after its opening quote, and what follows it. -/
def text? (cs : List Char) : Option (String × List Char) :=
  (chars? (cs.length + 1) cs).map fun (cs, rest) => (String.ofList cs, rest)

/-! ## Values -/

section Series

variable {α : Type}

/-- Items with commas between them up to a closing sign, and what follows that. -/
def series? (one : List Char → Option (α × List Char)) (closing : Char) :
    (fuel : Nat) → List Char → Option (List α × List Char)
  | 0, _ => none
  | fuel + 1, cs => (one cs).bind fun (x, rest) =>
    match rest.dropWhile isSpace with
    | c :: rest =>
      if c = closing then some ([x], rest)
      else if c = ',' then (series? one closing fuel rest).map fun (xs, rest) => (x :: xs, rest)
      else none
    | [] => none

/-- Any number of items, none included, after an opening sign. -/
def enclosed? (one : List Char → Option (α × List Char)) (closing : Char) (cs : List Char) :
    Option (List α × List Char) :=
  match cs.dropWhile isSpace with
  | c :: rest => if c = closing then some ([], rest) else series? one closing (cs.length + 1) cs
  | [] => none

/-- A key and the item after its colon. -/
def member? (one : List Char → Option (α × List Char)) (cs : List Char) :
    Option ((String × α) × List Char) :=
  match cs.dropWhile isSpace with
  | '"' :: rest => (text? rest).bind fun (key, rest) =>
    match rest.dropWhile isSpace with
    | ':' :: rest => (one rest).map fun (x, rest) => ((key, x), rest)
    | _ => none
  | _ => none

end Series

/-- A value, and what follows it. -/
def value? : (fuel : Nat) → List Char → Option (JsonValue × List Char)
  | 0, _ => none
  | fuel + 1, cs =>
    match cs.dropWhile isSpace with
    | '"' :: rest => (text? rest).map fun (s, rest) => (.text s, rest)
    | '[' :: rest => (enclosed? (value? fuel) ']' rest).map fun (vs, rest) => (.list vs, rest)
    | '\x7b' :: rest =>
      (enclosed? (member? (value? fuel)) '\x7d' rest).map fun (ms, rest) => (.object ms, rest)
    | _ => none

/-- The value that a document holds, with nothing but white space after it. Values may stand inside
one another as deep as in a schema file. -/
def read? (document : String) : Option JsonValue :=
  match value? Json.nestingLimit.toNat document.toList with
  | some (v, rest) => if rest.all isSpace then some v else none
  | none => none

/-- The value of a key, the last one if there are several. -/
def get? (key : String) : JsonValue → Option JsonValue
  | object members => members.reverse.lookup key
  | _ => none

/-- A value that is a text. -/
def asText? : JsonValue → Option String
  | text s => some s
  | _ => none

/-- A value that is a list. -/
def asList? : JsonValue → Option (List JsonValue)
  | list items => some items
  | _ => none

/-! ## Written texts are read -/

/-- The codes of the characters that are written as digits. -/
def codedChars : List Nat := List.range 0x20 ++ [0x3C, 0x3E, 0x26, 0x2028, 0x2029]

/-- The digits of a coded character are read as its code. -/
theorem unit?_hexDigits {n : Nat} (h : n ∈ codedChars) (rest : List Char) :
    unit? (Text.hexDigits 4 n ++ rest) = some (n, rest) := by
  have hall : ∀ n ∈ codedChars, ∃ a b c d, Text.hexDigits 4 n = [a, b, c, d] ∧
      Text.hexNumber? [a, b, c, d] = some n := by
    intro n hn
    refine ⟨_, _, _, _, rfl, ?_⟩
    revert n
    decide +kernel
  obtain ⟨a, b, c, d, hdigits, hnumber⟩ := hall n h
  rw [hdigits, List.cons_append, List.cons_append, List.cons_append, List.singleton_append, unit?,
    hnumber, Option.map_some]

/-- A coded character is read from its escape. -/
theorem escape?_hexDigits {c : Char} (h : c.toNat ∈ codedChars) (rest : List Char) :
    escape? ('u' :: Text.hexDigits 4 c.toNat ++ rest) = some (c, rest) := by
  have hwhole : ∀ n ∈ codedChars, isHighSurrogate n = false ∧ isLowSurrogate n = false := by
    decide +kernel
  obtain ⟨hhigh, hlow⟩ := hwhole _ h
  rw [List.cons_append, escape?, unit?_hexDigits h, Option.map_some]
  simp only [hhigh, unitChar, hlow, Bool.or_self, Bool.false_eq_true, if_false, Char.ofNat_toNat]

/-- What is written for a character is read as that character. -/
theorem char?_escape (c : Char) (rest : List Char) :
    char? (Dump.escape c ++ rest) = some (c, rest) := by
  unfold Dump.escape
  by_cases hmark : c = '"' ∨ c = '\\'
  · rw [if_pos hmark]
    rcases hmark with rfl | rfl <;> rfl
  rw [if_neg hmark]
  by_cases hfeed : c = '\n'
  · rw [if_pos hfeed, hfeed]
    rfl
  rw [if_neg hfeed]
  by_cases hreturn : c = '\r'
  · rw [if_pos hreturn, hreturn]
    rfl
  rw [if_neg hreturn]
  by_cases htab : c = '\t'
  · rw [if_pos htab, htab]
    rfl
  rw [if_neg htab]
  obtain ⟨hquote, hslash⟩ := not_or.1 hmark
  split_ifs with hcoded
  · have hmem : c.toNat ∈ codedChars := by
      rw [codedChars, List.mem_append, List.mem_range]
      rcases hcoded with hlow | rfl | rfl | rfl | rfl | rfl
      · exact .inl hlow
      all_goals exact .inr (by decide)
    exact escape?_hexDigits hmem rest
  · rw [List.singleton_append, char?]
    · exact if_neg (not_or.2 ⟨(not_or.1 hcoded).1, hquote⟩)
    · exact hslash

/-- What is written for the characters of a text is read up to the closing quote. -/
theorem chars?_flatMap_escape {cs : List Char} {fuel : Nat} (h : cs.length < fuel)
    (rest : List Char) :
    chars? fuel (cs.flatMap Dump.escape ++ '"' :: rest) = some (cs, rest) := by
  induction cs generalizing fuel with
  | nil =>
    cases fuel with
    | zero => exact absurd h (Nat.not_lt_zero _)
    | succ fuel => rfl
  | cons c cs ih =>
    cases fuel with
    | zero => exact absurd h (Nat.not_lt_zero _)
    | succ fuel =>
      have hchar := char?_escape c (cs.flatMap Dump.escape ++ '"' :: rest)
      rw [List.flatMap_cons, List.append_assoc, chars?]
      · rw [hchar, Option.bind_some]
        dsimp only
        rw [ih (Nat.lt_of_succ_lt_succ h), Option.map_some]
      · -- What is read as a character is not the closing quote.
        intro after heq
        rw [heq] at hchar
        exact absurd hchar (by simp [char?])

/-- No character is written as nothing. -/
theorem length_le_flatMap_escape (cs : List Char) :
    cs.length ≤ (cs.flatMap Dump.escape).length := by
  induction cs with
  | nil => exact Nat.le_refl _
  | cons c cs ih =>
    have hne : Dump.escape c ≠ [] := by
      intro hnil
      have hchar := char?_escape c []
      rw [hnil] at hchar
      exact absurd hchar (by simp [char?])
    have hpos := List.length_pos_iff.2 hne
    rw [List.flatMap_cons, List.length_append, List.length_cons]
    omega

/-- A written text has an opening quote, and after that it is read as the text. -/
theorem text?_string (s : String) : ∃ cs, (Dump.string s).toList = '"' :: cs ∧
    ∀ rest, text? (cs ++ rest) = some (s, rest) := by
  refine ⟨s.toList.flatMap Dump.escape ++ ['"'], by simp [Dump.string], fun rest => ?_⟩
  have hlength := length_le_flatMap_escape s.toList
  have hfuel : s.toList.length <
      (s.toList.flatMap Dump.escape ++ '"' :: rest).length + 1 := by
    rw [List.length_append]
    omega
  rw [List.append_assoc, List.singleton_append, text?, chars?_flatMap_escape hfuel, Option.map_some]
  dsimp only
  rw [String.ofList_toList]

/-! ## Written items are read -/

section Series

variable {α : Type} {one : List Char → Option (α × List Char)}

/-- A reader reads a text as an item, whatever follows the text. -/
def ReadsAs (one : List Char → Option (α × List Char)) (cs : List Char) (x : α) : Prop :=
  ∀ rest, one (cs ++ rest) = some (x, rest)

/-- A reader passes over white space in front. -/
def Skips (one : List Char → Option (α × List Char)) : Prop :=
  ∀ cs, one (cs.dropWhile isSpace) = one cs

/-- A sign ends what a reader reads items of: it is neither white space nor a comma, and no item
begins with it. -/
structure Closes (closing : Char) (one : List Char → Option (α × List Char)) : Prop where
  /-- The sign is no white space. -/
  solid : isSpace closing = false
  /-- The sign is not the one between items. -/
  ne_comma : closing ≠ ','
  /-- White space in front of an item does not matter. -/
  skips : Skips one
  /-- No item begins with the sign. -/
  stops (rest : List Char) : one (closing :: rest) = none

/-- Characters that are white space. -/
def IsSpacing (cs : List Char) : Prop := ∀ c ∈ cs, isSpace c = true

/-- A character that is no white space is the first one that counts. -/
theorem dropWhile_spacing {gap : List Char} (hgap : IsSpacing gap) {c : Char}
    (hc : isSpace c = false) (rest : List Char) :
    (gap ++ c :: rest).dropWhile isSpace = c :: rest := by
  rw [List.dropWhile_append_of_pos hgap, List.dropWhile_cons_of_neg (by simp [hc])]

/-- White space in front of a text does not matter to a reader that passes over it. -/
theorem ReadsAs.spaced (hskips : Skips one) {cs : List Char} {x : α} (h : ReadsAs one cs x)
    {gap : List Char} (hgap : IsSpacing gap) : ReadsAs one (gap ++ cs) x := by
  intro rest
  rw [List.append_assoc, ← hskips, List.dropWhile_append_of_pos hgap, hskips]
  exact h rest

/-- A series passes over white space in front when its items do. -/
theorem skips_series? (hskips : Skips one) (closing : Char) (fuel : Nat) :
    Skips (series? one closing fuel) := by
  intro cs
  cases fuel with
  | zero => rfl
  | succ fuel => rw [series?, series?, hskips]

/-- There is at most one item more than there are signs between the items. -/
theorem length_le_intercalate (c : Char) (gap : List Char) (texts : List (List Char)) :
    texts.length ≤ ((c :: gap).intercalate texts).length + 1 := by
  induction texts with
  | nil => exact Nat.zero_le _
  | cons text texts ih =>
    cases texts with
    | nil => exact Nat.succ_le_succ (Nat.zero_le _)
    | cons next texts =>
      rw [List.intercalate_cons_cons]
      simp only [List.length_append, List.length_cons] at ih ⊢
      omega

variable {closing : Char} {text gap last : List Char} {x : α}

/-- An item before the closing sign is the last one of a series. -/
theorem series?_last (hclosing : isSpace closing = false) (hx : ReadsAs one text x)
    (hlast : IsSpacing last) (fuel : Nat) (rest : List Char) :
    series? one closing (fuel + 1) (text ++ (last ++ closing :: rest)) = some ([x], rest) := by
  rw [series?, hx, Option.bind_some]
  dsimp only
  rw [dropWhile_spacing hlast hclosing]
  exact if_pos rfl

/-- After an item and a comma a series goes on. -/
theorem series?_comma (hcomma : closing ≠ ',') (hx : ReadsAs one text x) (fuel : Nat)
    (rest : List Char) : series? one closing (fuel + 1) (text ++ ',' :: rest) =
      (series? one closing fuel rest).map fun (xs, rest) => (x :: xs, rest) := by
  have hspace : isSpace ',' = false := by decide
  rw [series?, hx, Option.bind_some]
  dsimp only
  rw [List.dropWhile_cons_of_neg (by simp [hspace])]
  dsimp only
  rw [if_neg hcomma.symm, if_pos rfl]

variable (hcloses : Closes closing one) (hgap : IsSpacing gap) (hlast : IsSpacing last)

include hcloses hgap hlast

/-- Texts that are read as items are read as a series of them, when commas and white space stand
between them and the closing sign behind. -/
theorem series?_intercalate {texts : List (List Char)} {xs : List α} (hne : texts ≠ [])
    (h : List.Forall₂ (ReadsAs one) texts xs) {fuel : Nat} (hfuel : texts.length ≤ fuel) :
    ReadsAs (series? one closing fuel)
      ((',' :: gap).intercalate texts ++ (last ++ [closing])) xs := by
  induction h generalizing fuel with
  | nil => exact absurd rfl hne
  | @cons text x texts xs hx htexts ih =>
    intro rest
    cases fuel with
    | zero => exact absurd hfuel (Nat.not_succ_le_zero _)
    | succ fuel =>
      cases texts with
      | nil =>
        cases htexts
        rw [List.intercalate_singleton, List.append_assoc, List.append_assoc, List.singleton_append]
        exact series?_last hcloses.solid hx hlast fuel rest
      | cons next texts =>
        have hmore := ih (List.cons_ne_nil _ _) (Nat.le_of_succ_le_succ hfuel)
        have hread := hmore.spaced (skips_series? hcloses.skips closing fuel) hgap rest
        rw [List.intercalate_cons_cons, List.append_assoc, List.append_assoc, List.append_assoc,
          List.cons_append, series?_comma hcloses.ne_comma hx, ← List.append_assoc _ _ rest,
          ← List.append_assoc gap, hread, Option.map_some]

/-- Texts that are read as items are read as what stands between brackets. -/
theorem enclosed?_intercalate {texts : List (List Char)} {xs : List α} (hne : texts ≠ [])
    (h : List.Forall₂ (ReadsAs one) texts xs) :
    ReadsAs (enclosed? one closing)
      (gap ++ ((',' :: gap).intercalate texts ++ (last ++ [closing]))) xs := by
  intro rest
  have hlength := length_le_intercalate ',' gap texts
  generalize hcs : gap ++ ((',' :: gap).intercalate texts ++ (last ++ [closing])) ++ rest = cs
  have hseries : series? one closing (cs.length + 1) cs = some (xs, rest) := by
    have hfuel : texts.length ≤ cs.length + 1 := by
      rw [← hcs]
      simp only [List.length_append]
      omega
    have hread := series?_intercalate hcloses hgap hlast hne h hfuel
    rw [← hcs] at hread ⊢
    exact hread.spaced (skips_series? hcloses.skips closing _) hgap rest
  -- What stands in front is read as an item, so it is not the closing sign.
  have hone : ∃ x after, one cs = some (x, after) := by
    cases h with
    | nil => exact absurd rfl hne
    | @cons text x texts xs hx htexts =>
      obtain ⟨after, hafter⟩ : ∃ after, cs = gap ++ text ++ after := by
        rw [← hcs]
        cases texts with
        | nil => exact ⟨last ++ [closing] ++ rest, by simp⟩
        | cons next texts =>
          rw [List.intercalate_cons_cons]
          exact ⟨_, by simp only [List.append_assoc]; rfl⟩
      exact ⟨x, after, by rw [hafter]; exact hx.spaced hcloses.skips hgap after⟩
  obtain ⟨x, after, hone⟩ := hone
  rw [enclosed?]
  split
  · next c tail hdrop =>
    rw [if_neg, hseries]
    rintro rfl
    rw [← hcloses.skips, hdrop, hcloses.stops] at hone
    exact absurd hone (by simp)
  · next hdrop =>
    have hmem : closing ∈ cs := by
      rw [← hcs]
      simp
    have hspace := List.dropWhile_eq_nil_iff.1 hdrop closing hmem
    exact absurd (hcloses.solid.symm.trans hspace) (by simp)

end Series

/-- Values pass over white space in front. -/
theorem skips_value? (fuel : Nat) : Skips (value? fuel) := by
  intro cs
  cases fuel with
  | zero => rfl
  | succ fuel => rw [value?, value?, List.dropWhile_idempotent]

/-- A bracket closes a list of values. -/
theorem closes_value? (fuel : Nat) : Closes ']' (value? fuel) where
  solid := by decide
  ne_comma := by decide
  skips := skips_value? fuel
  stops rest := by cases fuel <;> rfl

/-- A brace closes the members of an object. -/
theorem closes_member? {α : Type} (one : List Char → Option (α × List Char)) :
    Closes '\x7d' (member? one) where
  solid := by decide
  ne_comma := by decide
  skips cs := by rw [member?, member?, List.dropWhile_idempotent]
  stops _ := rfl

/-- There is nothing to read where the closing sign stands first. -/
theorem enclosed?_closing {α : Type} {one : List Char → Option (α × List Char)} {closing : Char}
    (hcloses : Closes closing one) : ReadsAs (enclosed? one closing) [closing] [] := by
  intro rest
  rw [List.singleton_append, enclosed?,
    List.dropWhile_cons_of_neg (by simp [hcloses.solid])]
  exact if_pos rfl

/-- A written key with a colon behind it, and then an item, are read as a member. -/
theorem member?_string {α : Type} {one : List Char → Option (α × List Char)} {cs : List Char}
    {x : α} (h : ReadsAs one cs x) (key : String) :
    ReadsAs (member? one) ((Dump.string key).toList ++ ':' :: cs) (key, x) := by
  intro rest
  obtain ⟨text, hstring, hread⟩ := text?_string key
  have hquote : isSpace '"' = false := by decide
  have hcolon : isSpace ':' = false := by decide
  rw [hstring, List.cons_append, List.cons_append, List.append_assoc, member?,
    List.dropWhile_cons_of_neg (by simp [hquote])]
  change (text? (text ++ (':' :: cs ++ rest))).bind _ = _
  rw [hread, Option.bind_some]
  dsimp only
  rw [List.cons_append, List.dropWhile_cons_of_neg (by simp [hcolon])]
  change (one (cs ++ rest)).map _ = _
  rw [h, Option.map_some]

end JsonValue

end NodeFamily
