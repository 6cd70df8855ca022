import Mathlib.Data.Finset.Card
import NodeFamily.Difference.Report
import NodeFamily.Proofs.Characters
import NodeFamily.Proofs.Difference.Division

/-!
# How many lines a comparison can tell apart

The lines of two texts get the numbers from one on, each line one number (`LineTable.Lists`), and
the numbers are written as characters. Up to 55295 different lines every number is a character, so
that each line is found again and the script between the characters is one between the lines
(`leads_lineScript`). The next numbers are none, and all of them are written as the character at
65533. As long as there are not so many lines, looking for a line there fails, and the comparison
breaks off (`lineScript_eq_error_iff`). With more lines it goes on, with the line at that number in
place of theirs.
-/

namespace NodeFamily.Difference

/-! ## Scripts -/

section Scripts

variable {α β : Type} {as bs : List α} {script : List (Edit α)}

/-- A run with each item replaced. -/
def Edit.map (f : α → β) (e : Edit α) : Edit β := ⟨e.action, e.items.map f⟩

/-- Replacing the items of a script replaces those of both lists. -/
theorem Leads.map (h : Leads script as bs) (f : α → β) :
    Leads (script.map (Edit.map f)) (as.map f) (bs.map f) := by
  have hwithout : ∀ skipped, without skipped (script.map (Edit.map f)) =
      (without skipped script).map f := by
    intro skipped
    rw [without, without, List.flatMap_map, List.map_flatMap]
    refine List.flatMap_congr fun e _ => ?_
    by_cases hskipped : e.action = skipped
    · simp [Edit.map, hskipped]
    · simp [Edit.map, hskipped]
  exact ⟨(hwithout .insert).trans (congrArg _ h.before_eq),
    (hwithout .delete).trans (congrArg _ h.after_eq)⟩

/-- The items of the runs of a script are those of both lists. -/
theorem Leads.mem_items_iff (h : Leads script as bs) {a : α} :
    (∃ e ∈ script, a ∈ e.items) ↔ a ∈ as ∨ a ∈ bs := by
  have hmem : ∀ skipped, a ∈ without skipped script ↔
      ∃ e ∈ script, e.action ≠ skipped ∧ a ∈ e.items := by
    simp [without, List.mem_flatMap]
  rw [← h.before_eq, ← h.after_eq, before_eq_without, after_eq_without, hmem, hmem]
  constructor
  · rintro ⟨e, he, ha⟩
    by_cases hinsert : e.action = .insert
    · exact .inr ⟨e, he, by rw [hinsert]; decide, ha⟩
    · exact .inl ⟨e, he, hinsert, ha⟩
  · rintro (⟨e, he, -, ha⟩ | ⟨e, he, -, ha⟩)
    · exact ⟨e, he, ha⟩
    · exact ⟨e, he, ha⟩

/-- Comparing a list with itself keeps everything. -/
theorem keep_of_mem_compare [DecidableEq α] (as : List α) :
    ∀ e ∈ compare as as, e.action = .keep := by
  unfold compare
  rw [compareFrom, if_pos rfl]
  split_ifs
  · simp
  · simp

end Scripts

/-- An item of one list goes with an item of the other. -/
theorem exists_of_forall₂ {α β : Type} {R : α → β → Prop} {as : List α} {bs : List β}
    (h : List.Forall₂ R as bs) {a : α} (ha : a ∈ as) : ∃ b ∈ bs, R a b := by
  induction h with
  | nil => exact absurd ha List.not_mem_nil
  | cons hab _ ih =>
    rcases List.mem_cons.1 ha with rfl | ha
    · exact ⟨_, List.mem_cons_self, hab⟩
    · obtain ⟨b, hb, hR⟩ := ih ha
      exact ⟨b, List.mem_cons_of_mem _ hb, hR⟩

section MapM

variable {α β ε : Type} {f : α → Except ε β} {as : List α}

/-- Items that all give a result give the list of these. -/
theorem mapM_eq_ok {g : α → β} (h : ∀ a ∈ as, f a = .ok (g a)) : as.mapM f = .ok (as.map g) := by
  induction as with
  | nil => rfl
  | cons a as ih =>
    rw [List.forall_mem_cons] at h
    rw [List.mapM_cons, h.1, ih h.2]
    rfl

/-- Items of which some fail, and all that do in the same way, fail in this way. -/
theorem mapM_eq_error {e : ε} (h : ∀ a ∈ as, f a = .error e ∨ ∃ b, f a = .ok b)
    (hfail : ∃ a ∈ as, f a = .error e) : as.mapM f = .error e := by
  induction as with
  | nil => simp at hfail
  | cons a as ih =>
    rw [List.forall_mem_cons] at h
    rw [List.mapM_cons]
    rcases h.1 with ha | ⟨b, ha⟩
    · rw [ha]
      rfl
    · have hrest : ∃ a ∈ as, f a = .error e := by
        obtain ⟨a', ha', herror⟩ := hfail
        rcases List.mem_cons.1 ha' with rfl | ha'
        · rw [ha] at herror
          cases herror
        · exact ⟨a', ha', herror⟩
      rw [ha, ih h.2 hrest]
      rfl

end MapM

/-! ## Numbers -/

namespace LineTable

variable {t : LineTable} {seen : List String}

/-- A line has a number. -/
def Has (t : LineTable) (n : Nat) (line : String) : Prop := 0 < n ∧ t.lines[n]? = some line

/-- A table lists the lines that were seen, each of them at one number. -/
structure Lists (t : LineTable) (seen : List String) : Prop where
  /-- The numbers of the lines are those at which they stand. -/
  number_iff : ∀ line n, t.numbers[line]? = some n ↔ t.Has n line
  /-- The lines that were seen have numbers, and no others. -/
  mem_iff : ∀ line, line ∈ seen ↔ ∃ n, t.Has n line
  /-- There are as many numbers as there are different lines. -/
  size_eq : t.lines.size = seen.toFinset.card + 1

/-- The table at the start lists nothing. -/
theorem lists_nil : Lists {} [] where
  number_iff line n := by
    rw [Std.TreeMap.getElem?_emptyc]
    unfold Has
    cases n <;> simp
  mem_iff line := by
    unfold Has
    refine iff_of_false List.not_mem_nil ?_
    rintro ⟨n, hn, hline⟩
    cases n <;> simp at hn hline
  size_eq := rfl

/-- One more line gets a number, and the lines before it keep theirs. -/
theorem Lists.number (h : t.Lists seen) (line : String) :
    (t.number line).2.Lists (seen ++ [line]) ∧ (t.number line).2.Has (t.number line).1 line ∧
      ∀ n line', t.Has n line' → (t.number line).2.Has n line' := by
  unfold LineTable.number
  cases hnumber : t.numbers[line]? with
  | some n =>
    have hhas := (h.number_iff line n).1 hnumber
    have hmem : line ∈ seen := (h.mem_iff line).2 ⟨n, hhas⟩
    refine ⟨⟨h.number_iff, fun line' => ?_, ?_⟩, hhas, fun _ _ => id⟩
    · rw [← h.mem_iff, List.mem_append, List.mem_singleton, or_iff_left_of_imp]
      rintro rfl
      exact hmem
    · rw [h.size_eq, List.toFinset_append, Finset.union_eq_left.2]
      simpa using hmem
  | none =>
    have hnew : line ∉ seen := fun hmem => by
      obtain ⟨n, hhas⟩ := (h.mem_iff line).1 hmem
      rw [(h.number_iff line n).2 hhas] at hnumber
      cases hnumber
    -- The line stands at the end, and all else as before.
    have hhas : ∀ n line', (t.add line).Has n line' ↔
        (n = t.lines.size ∧ line' = line) ∨ t.Has n line' := by
      intro n line'
      have hpos : 0 < t.lines.size := h.size_eq ▸ Nat.succ_pos _
      unfold Has
      rw [add, Array.getElem?_push]
      by_cases hn : n = t.lines.size
      · subst hn
        simp [hpos, eq_comm]
      · simp [hn]
    refine ⟨⟨fun line' n => ?_, fun line' => ?_, ?_⟩, (hhas _ _).2 (.inl ⟨rfl, rfl⟩),
      fun n line' hold => (hhas _ _).2 (.inr hold)⟩
    · rw [hhas, add, Std.TreeMap.getElem?_insert, ← h.number_iff]
      by_cases hline : line' = line
      · subst hline
        simp [hnumber, eq_comm]
      · simp [hline, Ne.symm hline]
    · rw [List.mem_append, h.mem_iff, List.mem_singleton]
      simp only [hhas, exists_or, exists_eq_left]
      tauto
    · rw [add, Array.size_push, h.size_eq, List.toFinset_append, Finset.union_comm]
      simp [Finset.card_insert_of_notMem, hnew]

/-- All lines get numbers, and the lines before them keep theirs. -/
theorem Lists.numberAll (h : t.Lists seen) (lines : List String) :
    (t.numberAll lines).2.Lists (seen ++ lines) ∧
      List.Forall₂ (t.numberAll lines).2.Has (t.numberAll lines).1 lines ∧
      ∀ n line, t.Has n line → (t.numberAll lines).2.Has n line := by
  induction lines generalizing t seen with
  | nil => exact ⟨by rwa [List.append_nil], .nil, fun _ _ => id⟩
  | cons line lines ih =>
    obtain ⟨hlists, hhas, hkeep⟩ := h.number line
    obtain ⟨hlists', hall, hkeep'⟩ := ih hlists
    rw [List.append_assoc] at hlists'
    exact ⟨hlists', .cons (hkeep' _ _ hhas) hall, fun n line' hold => hkeep' _ _ (hkeep _ _ hold)⟩

/-! ## Characters -/

/-- A number that is a character is written as it. -/
theorem toNat_char {n : Nat} (hn : n.isValidChar) : (char n).toNat = n := by
  rw [char, if_pos hn, Text.toNat_ofNat hn]

/-- A number that is no character is written as the one at 65533. -/
theorem toNat_char_of_not {n : Nat} (hn : ¬n.isValidChar) : (char n).toNat = 65533 := by
  rw [char, if_neg hn]
  rfl

/-- The line that a character is taken for, or the empty one. -/
def lineD (t : LineTable) (c : Char) : String := t.lines[c.toNat]?.getD ""

/-- A character below the end of a table is taken for a line. -/
theorem line_eq_ok {c : Char} (hc : c.toNat < t.lines.size) : t.line c = .ok (t.lineD c) := by
  rw [line, lineD, Array.getElem?_eq_getElem hc]
  rfl

/-- A character beyond the end of a table is taken for nothing. -/
theorem line_eq_error {c : Char} (hc : t.lines.size ≤ c.toNat) :
    t.line c = .error ⟨c.toNat, t.lines.size⟩ := by
  rw [line, Array.getElem?_eq_none hc]

/-- A script of characters below the end of a table is one of lines. -/
theorem mapM_restore_eq_ok {script : List (Edit Char)}
    (h : ∀ e ∈ script, ∀ c ∈ e.items, c.toNat < t.lines.size) :
    script.mapM t.restore = .ok (script.map (Edit.map t.lineD)) := by
  refine mapM_eq_ok fun e he => ?_
  rw [restore, mapM_eq_ok fun c hc => line_eq_ok (h e he c hc)]
  rfl

/-- A script with a character that stands for no line, and no other such character, is not one of
lines. -/
theorem mapM_restore_eq_error {script : List (Edit Char)} {c : Char} (hc : t.lines.size ≤ c.toNat)
    (h : ∀ e ∈ script, ∀ d ∈ e.items, d = c ∨ d.toNat < t.lines.size)
    (hmem : ∃ e ∈ script, c ∈ e.items) :
    script.mapM t.restore = .error ⟨c.toNat, t.lines.size⟩ := by
  have hline : ∀ e ∈ script, ∀ d ∈ e.items,
      t.line d = .error ⟨c.toNat, t.lines.size⟩ ∨ ∃ line, t.line d = .ok line := by
    intro e he d hd
    rcases h e he d hd with rfl | hd
    · exact .inl (line_eq_error hc)
    · exact .inr ⟨_, line_eq_ok hd⟩
  have hrestore : ∀ e ∈ script, c ∈ e.items → t.restore e = .error ⟨c.toNat, t.lines.size⟩ := by
    intro e he hce
    rw [restore, mapM_eq_error (hline e he) ⟨c, hce, line_eq_error hc⟩]
    rfl
  refine mapM_eq_error (fun e he => ?_) ?_
  · by_cases hce : c ∈ e.items
    · exact .inl (hrestore e he hce)
    · refine .inr ⟨e.map t.lineD, ?_⟩
      rw [restore, mapM_eq_ok fun d hd => line_eq_ok ((h e he d hd).resolve_left fun heq =>
        hce (heq ▸ hd))]
      rfl
  · obtain ⟨e, he, hce⟩ := hmem
    exact ⟨e, he, hrestore e he hce⟩

end LineTable

/-! ## The script between texts -/

variable {actual want : String}

/-- How many different lines two texts have together. -/
def lineCount (actual want : String) : Nat :=
  (Text.linesWithEnds actual ++ Text.linesWithEnds want).toFinset.card

/-- Two texts have more different lines than there are characters before the surrogates, but not so
many that 65533 is the number of a line. -/
def IsTorn (actual want : String) : Prop :=
  55296 ≤ lineCount actual want ∧ lineCount actual want ≤ 65532

instance (actual want : String) : Decidable (IsTorn actual want) :=
  inferInstanceAs (Decidable (_ ∧ _))

/-- The lines of both texts are numbered in one table, and the script between them is the one
between the characters for their numbers. -/
theorem exists_lists (actual want : String) : ∃ (t : LineTable) (before after : List Nat),
    lineScript actual want =
        (compare (before.map LineTable.char) (after.map LineTable.char)).mapM t.restore ∧
      t.Lists (Text.linesWithEnds actual ++ Text.linesWithEnds want) ∧
      List.Forall₂ t.Has before (Text.linesWithEnds actual) ∧
      List.Forall₂ t.Has after (Text.linesWithEnds want) := by
  obtain ⟨hlists, hbefore, -⟩ := LineTable.lists_nil.numberAll (Text.linesWithEnds actual)
  obtain ⟨hlists', hafter, hkeep⟩ := hlists.numberAll (Text.linesWithEnds want)
  exact ⟨_, _, _, rfl, hlists', hbefore.imp hkeep, hafter⟩

section Numbered

open LineTable (char)

variable {t : LineTable} {before after : List Nat}

/-- The characters of the script between numbered texts are those of the numbers of the table. -/
theorem mem_items_iff (hlists : t.Lists (Text.linesWithEnds actual ++ Text.linesWithEnds want))
    (hbefore : List.Forall₂ t.Has before (Text.linesWithEnds actual))
    (hafter : List.Forall₂ t.Has after (Text.linesWithEnds want)) {c : Char} :
    (∃ e ∈ compare (before.map char) (after.map char), c ∈ e.items) ↔
      ∃ n, 0 < n ∧ n < t.lines.size ∧ c = char n := by
  have hnumbers : ∀ n, (n ∈ before ∨ n ∈ after) ↔ 0 < n ∧ n < t.lines.size := by
    intro n
    constructor
    · have hlt : ∀ {ns : List Nat} {lines : List String}, List.Forall₂ t.Has ns lines → n ∈ ns →
          0 < n ∧ n < t.lines.size := by
        intro ns lines hhas hn
        obtain ⟨line, -, hpos, hline⟩ := exists_of_forall₂ hhas hn
        exact ⟨hpos, (Array.getElem?_eq_some_iff.1 hline).1⟩
      rintro (hn | hn)
      · exact hlt hbefore hn
      · exact hlt hafter hn
    · -- The line at the number is one of the texts, where it has this number and no other.
      rintro ⟨hpos, hlt⟩
      have hhas : t.Has n t.lines[n] := ⟨hpos, Array.getElem?_eq_getElem hlt⟩
      have hsame : ∀ {m}, t.Has m t.lines[n] → m = n := fun hm =>
        Option.some.inj (((hlists.number_iff _ _).2 hm).symm.trans ((hlists.number_iff _ _).2 hhas))
      rcases List.mem_append.1 ((hlists.mem_iff _).2 ⟨n, hhas⟩) with hmem | hmem
      · obtain ⟨m, hm, hline⟩ := exists_of_forall₂ hbefore.flip hmem
        exact .inl (hsame hline ▸ hm)
      · obtain ⟨m, hm, hline⟩ := exists_of_forall₂ hafter.flip hmem
        exact .inr (hsame hline ▸ hm)
  rw [(leads_compare _ _).mem_items_iff, List.mem_map, List.mem_map, ← exists_or]
  refine exists_congr fun n => ?_
  rw [← or_and_right, hnumbers, and_assoc, eq_comm]

end Numbered

/-- The characters that numbers are written as stand for lines, as long as the numbers are
characters or there is a line at the number of the character for the others. -/
theorem LineTable.toNat_char_lt {t : LineTable} {n : Nat} (hn : n < t.lines.size)
    (h : n.isValidChar ∨ 65533 < t.lines.size) : (char n).toNat < t.lines.size := by
  by_cases hchar : n.isValidChar
  · rwa [toNat_char hchar]
  · rw [toNat_char_of_not hchar]
    exact h.resolve_left hchar

/-- The script between texts, when there is a line for each character. -/
theorem lineScript_eq_ok (h : lineCount actual want ≤ 55295 ∨ 65533 ≤ lineCount actual want) :
    ∃ (t : LineTable) (before after : List Nat),
      t.Lists (Text.linesWithEnds actual ++ Text.linesWithEnds want) ∧
      List.Forall₂ t.Has before (Text.linesWithEnds actual) ∧
      List.Forall₂ t.Has after (Text.linesWithEnds want) ∧
      lineScript actual want = .ok
        ((compare (before.map LineTable.char) (after.map LineTable.char)).map
          (Edit.map t.lineD)) := by
  obtain ⟨t, before, after, hscript, hlists, hbefore, hafter⟩ := exists_lists actual want
  refine ⟨t, before, after, hlists, hbefore, hafter, ?_⟩
  rw [hscript]
  refine LineTable.mapM_restore_eq_ok fun e he c hc => ?_
  obtain ⟨n, -, hn, rfl⟩ := (mem_items_iff hlists hbefore hafter).1 ⟨e, he, hc⟩
  refine LineTable.toNat_char_lt hn ?_
  have hsize : t.lines.size = lineCount actual want + 1 := hlists.size_eq
  unfold Nat.isValidChar
  omega

/-- The comparison of texts breaks off exactly when they are torn. -/
theorem lineScript_eq_error_iff {e : OutOfRange} : lineScript actual want = .error e ↔
    IsTorn actual want ∧ e = ⟨65533, lineCount actual want + 1⟩ := by
  by_cases htorn : IsTorn actual want
  · obtain ⟨hlo, hhi⟩ := htorn
    obtain ⟨t, before, after, hscript, hlists, hbefore, hafter⟩ := exists_lists actual want
    have hsize : t.lines.size = lineCount actual want + 1 := hlists.size_eq
    have hchars := fun {c : Char} => mem_items_iff (c := c) hlists hbefore hafter
    -- The first number that is no character, which is written as one that stands for no line.
    have hfirst : ¬Nat.isValidChar 55296 := by decide
    have herror : lineScript actual want = .error ⟨65533, lineCount actual want + 1⟩ := by
      rw [hscript, ← hsize, ← LineTable.toNat_char_of_not hfirst]
      refine LineTable.mapM_restore_eq_error ?_ (fun e he d hd => ?_)
        (hchars.2 ⟨55296, by omega, by omega, rfl⟩)
      · rw [LineTable.toNat_char_of_not hfirst]
        omega
      · obtain ⟨n, -, hn, rfl⟩ := hchars.1 ⟨e, he, hd⟩
        by_cases hchar : n.isValidChar
        · exact .inr (LineTable.toNat_char_lt hn (.inl hchar))
        · exact .inl (by rw [LineTable.char, LineTable.char, if_neg hchar, if_neg hfirst])
    rw [herror, Except.error.injEq, eq_comm]
    exact ⟨fun he => ⟨⟨hlo, hhi⟩, he⟩, fun he => he.2⟩
  · have hline : lineCount actual want ≤ 55295 ∨ 65533 ≤ lineCount actual want := by
      unfold IsTorn at htorn
      omega
    obtain ⟨t, before, after, -, -, -, hscript⟩ := lineScript_eq_ok hline
    rw [hscript]
    exact iff_of_false (by simp) fun he => htorn he.1

/-- The script between texts with at most 55295 different lines leads from the one to the other, line
by line, and keeps all lines of texts that agree. -/
theorem leads_lineScript (h : lineCount actual want ≤ 55295) :
    ∃ script, lineScript actual want = .ok script ∧
      Leads script (Text.linesWithEnds actual) (Text.linesWithEnds want) ∧
      (actual = want → ∀ e ∈ script, e.action = .keep) := by
  obtain ⟨t, before, after, hlists, hbefore, hafter, hscript⟩ := lineScript_eq_ok (.inl h)
  have hsize : t.lines.size = lineCount actual want + 1 := hlists.size_eq
  -- Each number comes back as its line.
  have hback : ∀ {ns : List Nat} {lines : List String}, List.Forall₂ t.Has ns lines →
      (ns.map LineTable.char).map t.lineD = lines := by
    intro ns lines hhas
    induction hhas with
    | nil => rfl
    | cons hline _ ih =>
      obtain ⟨-, hline⟩ := hline
      have hn := (Array.getElem?_eq_some_iff.1 hline).1
      have hchar : Nat.isValidChar _ := .inl (Nat.lt_of_lt_of_le hn (by omega : _ ≤ 55296))
      rw [List.map_cons, List.map_cons, ih, LineTable.lineD, LineTable.toNat_char hchar, hline,
        Option.getD_some]
  refine ⟨_, hscript, ?_, ?_⟩
  · have hleads :=
      (leads_compare (before.map LineTable.char) (after.map LineTable.char)).map t.lineD
    rwa [hback hbefore, hback hafter] at hleads
  · rintro rfl
    -- A line has one number, so that the numbers of both texts are the same.
    have hunique : Relator.LeftUnique t.Has := fun m line n hm hn =>
      Option.some.inj (((hlists.number_iff _ _).2 hm).symm.trans ((hlists.number_iff _ _).2 hn))
    obtain rfl := List.left_unique_forall₂' hunique hbefore hafter
    intro e he
    obtain ⟨e', he', rfl⟩ := List.mem_map.1 he
    exact keep_of_mem_compare _ e' he'

/-! ## Texts of many lines -/

/-- A text of `n` different lines, each of one character. -/
def manyLines (n : Nat) : String :=
  String.join ((List.range n).map fun i => String.ofList [Char.ofNat (65536 + i), '\n'])

/-- Characters other than a line feed, each with one after it, are the first lines of a text. -/
theorem linesWithEnds_join_append (cs : List Char) (hcs : '\n' ∉ cs) (rest : String) :
    Text.linesWithEnds (String.join (cs.map fun c => String.ofList [c, '\n']) ++ rest) =
      (cs.map fun c => String.ofList [c, '\n']) ++ Text.linesWithEnds rest := by
  have hcut : Text.cutAfter '\n' (cs.flatMap (fun c => [c, '\n']) ++ rest.toList) =
      (cs.map fun c => [c, '\n']) ++ Text.cutAfter '\n' rest.toList := by
    induction cs with
    | nil => rfl
    | cons c cs ih =>
      obtain ⟨hc, hcs⟩ := not_or.1 (List.mem_cons.not.1 hcs)
      rw [List.flatMap_cons, List.append_assoc, List.cons_append, List.cons_append, List.nil_append,
        Text.cutAfter, if_neg (Ne.symm hc), Text.cutAfter, if_pos rfl, ih hcs, List.map_cons,
        List.cons_append]
  have hjoin : (String.join (cs.map fun c => String.ofList [c, '\n'])).toList =
      cs.flatMap fun c => [c, '\n'] := by
    simp [List.flatMap_map]
  rw [Text.linesWithEnds, String.toList_append, hjoin, hcut, List.map_append, List.map_map]
  rfl

/-- Many lines before a text are as many different ones, and all others are in the two texts. -/
theorem lineCount_manyLines {n : Nat} (hn : n ≤ 983040) (rest want : String) :
    n ≤ lineCount (manyLines n ++ rest) want ∧ lineCount (manyLines n ++ rest) want ≤
      n + ((Text.linesWithEnds rest).length + (Text.linesWithEnds want).length) := by
  have hcode : ∀ i < n, (Char.ofNat (65536 + i)).toNat = 65536 + i := fun i hi =>
    Text.toNat_ofNat (.inr ⟨by omega, by omega⟩)
  let lines := (List.range n).map fun i => String.ofList [Char.ofNat (65536 + i), '\n']
  have hlines : Text.linesWithEnds (manyLines n ++ rest) = lines ++ Text.linesWithEnds rest := by
    have hcs : '\n' ∉ (List.range n).map fun i => Char.ofNat (65536 + i) := by
      rw [List.mem_map]
      rintro ⟨i, hi, hchar⟩
      have hnat := hcode i (List.mem_range.1 hi)
      rw [hchar, show '\n'.toNat = 10 from rfl] at hnat
      omega
    have hjoin := linesWithEnds_join_append _ hcs rest
    rwa [List.map_map] at hjoin
  have hnodup : lines.Nodup := by
    refine List.Nodup.map_on (fun i hi j hj heq => ?_) List.nodup_range
    have hchar : Char.ofNat (65536 + i) = Char.ofNat (65536 + j) := by
      simpa using heq
    have hnat := congrArg Char.toNat hchar
    rw [hcode i (List.mem_range.1 hi), hcode j (List.mem_range.1 hj)] at hnat
    omega
  have hcard : lines.toFinset.card = n := by
    rw [List.toFinset_card_of_nodup hnodup, List.length_map, List.length_range]
  unfold lineCount
  rw [hlines, List.append_assoc, List.toFinset_append]
  constructor
  · exact hcard.symm.le.trans (Finset.card_le_card Finset.subset_union_left)
  · refine (Finset.card_union_le _ _).trans ?_
    rw [hcard, ← List.length_append]
    exact Nat.add_le_add_left (List.toFinset_card_le _) n

end NodeFamily.Difference
