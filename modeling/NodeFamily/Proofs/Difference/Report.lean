import NodeFamily.Proofs.Difference.LineTable

/-!
# A report accounts for the whole difference

What a report shows below its head is a list of lines, each marked as missing or superfluous, and
with the lines that it does not show they make up both texts, as long as these have no more than
55295 different lines (`report_accounts`). So such a report shows nothing below its head exactly for
texts that agree. With more lines there may be no report at all (`reportOrFail_eq_error_iff`).

The comparison is by runs of lines (`leads_lineScript`). Here its script is taken line by line
(`entries`), where keeping, deleting and inserting can be told by a filter.
-/

namespace NodeFamily.Difference

/-! ## Scripts item by item -/

section Entries

variable {α : Type}

/-- A script item by item, each with what happens to it. -/
def entries (script : List (Edit α)) : List (Action × α) :=
  script.flatMap fun e => e.items.map (Prod.mk e.action)

/-- The first run item by item, and then the others. -/
theorem entries_cons (e : Edit α) (script : List (Edit α)) :
    entries (e :: script) = e.items.map (Prod.mk e.action) ++ entries script :=
  List.flatMap_cons

/-- Leaving out one kind of entry is leaving out one kind of run. -/
theorem map_filter_entries (skipped : Action) (script : List (Edit α)) :
    ((entries script).filter (·.1 ≠ skipped)).map (·.2) = without skipped script := by
  induction script with
  | nil => rfl
  | cons e script ih =>
    rw [entries_cons, List.filter_append, List.map_append, ih, without_cons]
    congr 1
    by_cases hskipped : e.action = skipped
    · simp [hskipped, List.filter_map, Function.comp_def]
    · simp [hskipped, List.filter_map, Function.comp_def]

/-- A script that keeps everything leads from a list to itself. -/
theorem Leads.eq_of_forall_keep {script : List (Edit α)} {as bs : List α} (h : Leads script as bs)
    (hkeep : ∀ entry ∈ entries script, entry.1 = .keep) : as = bs := by
  have hall : ∀ skipped ≠ Action.keep,
      without skipped script = (entries script).map (·.2) := by
    intro skipped hskipped
    rw [← map_filter_entries, List.filter_eq_self.2]
    intro entry hentry
    rw [hkeep entry hentry]
    exact decide_eq_true hskipped.symm
  calc as = without .insert script := h.before_eq.symm
    _ = (entries script).map (·.2) := hall _ (by decide)
    _ = without .delete script := (hall _ (by decide)).symm
    _ = bs := h.after_eq

end Entries

/-! ## Lines -/

/-- A piece of a text ends after the first separator in it, if there is one. -/
theorem exists_stem_of_mem_cutAfter {sep : Char} {cs piece : List Char}
    (h : piece ∈ Text.cutAfter sep cs) :
    ∃ stem, sep ∉ stem ∧ (piece = stem ++ [sep] ∨ piece = stem) := by
  induction cs generalizing piece with
  | nil => simp [Text.cutAfter] at h
  | cons c cs ih =>
    rw [Text.cutAfter] at h
    split_ifs at h with hc
    · rcases List.mem_cons.1 h with rfl | h
      · exact ⟨[], List.not_mem_nil, .inl (by rw [hc, List.nil_append])⟩
      · exact ih h
    · have hgrown : ∀ stem, sep ∉ stem → sep ∉ c :: stem := fun stem hstem hmem =>
        (List.mem_cons.1 hmem).elim (fun heq => hc heq.symm) hstem
      split at h
      · obtain rfl := List.mem_singleton.1 h
        exact ⟨[c], hgrown [] List.not_mem_nil, .inr rfl⟩
      · next first pieces hpieces =>
        rcases List.mem_cons.1 h with rfl | h
        · -- The character goes to the front of the first piece.
          obtain ⟨stem, hstem, rfl | rfl⟩ := ih (hpieces ▸ List.mem_cons_self)
          · exact ⟨c :: stem, hgrown stem hstem, .inl rfl⟩
          · exact ⟨c :: first, hgrown first hstem, .inr rfl⟩
        · exact ih (hpieces ▸ List.mem_cons_of_mem _ h)

/-- A line without its end has no line feed, and is the line up to the line feed at its end. -/
theorem withoutEnd_of_mem_linesWithEnds {text line : String} (h : line ∈ Text.linesWithEnds text) :
    '\n' ∉ (withoutEnd line).toList ∧
      (line = withoutEnd line ++ "\n" ∨ line = withoutEnd line) := by
  obtain ⟨piece, hpiece, rfl⟩ := List.mem_map.1 h
  obtain ⟨stem, hstem, rfl | rfl⟩ := exists_stem_of_mem_cutAfter hpiece
  · have hwithout : withoutEnd (String.ofList (stem ++ ['\n'])) = String.ofList stem := by
      simp [withoutEnd]
    rw [hwithout, String.toList_ofList]
    exact ⟨hstem, .inl String.ofList_append⟩
  · have hwithout : withoutEnd (String.ofList piece) = String.ofList piece := by
      unfold withoutEnd
      split
      · next rest hrest =>
        rw [String.toList_ofList, List.reverse_eq_cons_iff] at hrest
        exact absurd (hrest ▸ by simp) hstem
      · rfl
    rw [hwithout, String.toList_ofList]
    exact ⟨hstem, .inr rfl⟩

/-- The lines of a text follow one another to it. -/
theorem join_linesWithEnds (text : String) : String.join (Text.linesWithEnds text) = text := by
  apply String.toList_injective
  simp [Text.linesWithEnds, List.flatMap_map]

/-- What is shown of a line, by what happens to it. -/
def shownLine : Action × String → String
  | (.keep, _) => ""
  | (.delete, line) => "-" ++ withoutEnd line ++ "\n"
  | (.insert, line) => "+" ++ withoutEnd line ++ "\n"

/-- Only of a kept line nothing is shown. -/
theorem shownLine_eq_empty_iff (entry : Action × String) :
    shownLine entry = "" ↔ entry.1 = .keep := by
  obtain ⟨action, line⟩ := entry
  cases action <;> simp [shownLine]

/-- Nothing is shown of lines exactly when all of them are kept. -/
theorem join_shownLine_eq_empty_iff (script : List (Action × String)) :
    String.join (script.map shownLine) = "" ↔ ∀ entry ∈ script, entry.1 = .keep := by
  induction script with
  | nil => simp
  | cons entry script ih =>
    rw [List.map_cons, String.join_cons, String.append_eq_empty_iff, ih, shownLine_eq_empty_iff,
      List.forall_mem_cons]

/-- What is shown of a script is what is shown of its lines. -/
theorem join_shown (script : List (Edit String)) :
    String.join (script.flatMap Edit.shown) = String.join ((entries script).map shownLine) := by
  induction script with
  | nil => rfl
  | cons e script ih =>
    obtain ⟨action, items⟩ := e
    rw [List.flatMap_cons, String.join_append, ih, entries_cons, List.map_append,
      String.join_append]
    congr 1
    cases action with
    | keep => exact ((join_shownLine_eq_empty_iff _).2 (by simp)).symm
    | delete => rw [List.map_map]; rfl
    | insert => rw [List.map_map]; rfl

/-! ## Reports -/

variable {name actual want : String}

/-- There is no report exactly when the texts are torn. -/
theorem reportOrFail_eq_error_iff {e : OutOfRange} : reportOrFail name actual want = .error e ↔
    IsTorn actual want ∧ e = ⟨65533, lineCount actual want + 1⟩ := by
  rw [← lineScript_eq_error_iff, reportOrFail]
  cases lineScript actual want <;> simp [Except.map]

/-- What a report shows, when the texts have no more than 55295 different lines together. There is a
list of lines, each of them kept, deleted or inserted, such that the kept and the deleted lines are
those of the file and follow one another to its text, and the kept and the inserted lines are those
of the wanted text and follow one another to that. The comparison comes to its end, and below its
two lines of head the report has the deleted lines after a minus and the inserted ones after a plus,
in the order of the list, each without the line feed at its own end and with one after it. It has
nothing there exactly when the texts agree. -/
theorem report_accounts (name : String) (hcount : lineCount actual want ≤ 55295) :
    ∃ script : List (Action × String),
      (script.filter (·.1 ≠ .insert)).map (·.2) = Text.linesWithEnds actual ∧
        String.join (Text.linesWithEnds actual) = actual ∧
      (script.filter (·.1 ≠ .delete)).map (·.2) = Text.linesWithEnds want ∧
        String.join (Text.linesWithEnds want) = want ∧
      (∀ entry ∈ script, '\n' ∉ (withoutEnd entry.2).toList ∧
        (entry.2 = withoutEnd entry.2 ++ "\n" ∨ entry.2 = withoutEnd entry.2)) ∧
      reportOrFail name actual want = .ok (report name actual want) ∧
      report name actual want = "--- " ++ name ++ "\n+++ " ++ name ++ " (regenerated)\n" ++
        String.join (script.map shownLine) ∧
      (String.join (script.map shownLine) = "" ↔ actual = want) := by
  obtain ⟨script, hscript, hleads, hkeep⟩ := leads_lineScript hcount
  have hbefore := (map_filter_entries .insert script).trans hleads.before_eq
  have hafter := (map_filter_entries .delete script).trans hleads.after_eq
  have hreport : reportOrFail name actual want = .ok ("--- " ++ name ++ "\n+++ " ++ name ++
      " (regenerated)\n" ++ String.join ((entries script).map shownLine)) := by
    rw [reportOrFail, hscript, ← join_shown]
    rfl
  have hshown : report name actual want = "--- " ++ name ++ "\n+++ " ++ name ++
      " (regenerated)\n" ++ String.join ((entries script).map shownLine) := by
    rw [report, hreport]
    rfl
  refine ⟨entries script, hbefore, join_linesWithEnds actual, hafter, join_linesWithEnds want,
    fun entry hentry => ?_, hreport.trans (congrArg _ hshown.symm), hshown, ?_⟩
  · -- A line that is not inserted is one of the file, and one that is inserted is wanted.
    by_cases hinsert : entry.1 = .insert
    · have hkept : entry.1 ≠ .delete := by
        rw [hinsert]
        decide
      have hmem : entry.2 ∈ Text.linesWithEnds want := by
        rw [← hafter]
        exact List.mem_map_of_mem (List.mem_filter.2 ⟨hentry, decide_eq_true hkept⟩)
      exact withoutEnd_of_mem_linesWithEnds hmem
    · have hmem : entry.2 ∈ Text.linesWithEnds actual := by
        rw [← hbefore]
        exact List.mem_map_of_mem (List.mem_filter.2 ⟨hentry, decide_eq_true hinsert⟩)
      exact withoutEnd_of_mem_linesWithEnds hmem
  · rw [join_shownLine_eq_empty_iff]
    constructor
    · intro hall
      rw [← join_linesWithEnds actual, hleads.eq_of_forall_keep hall, join_linesWithEnds]
    · intro heq entry hentry
      obtain ⟨e, he, hitem⟩ := List.mem_flatMap.1 hentry
      obtain ⟨item, -, rfl⟩ := List.mem_map.1 hitem
      exact hkeep heq e he

/-- A line that is there without its line feed is deleted, and inserted with it. -/
theorem report_accounts_end :
    lineCount "a\nb" "a\nb\n" = 3 ∧
      report "f" "a\nb" "a\nb\n" = "--- f\n+++ f (regenerated)\n-b\n+b\n" ∧
      ∃ script : List (Action × String),
        (script.filter (·.1 ≠ .insert)).map (·.2) = ["a\n", "b"] ∧
        (script.filter (·.1 ≠ .delete)).map (·.2) = ["a\n", "b\n"] ∧
        report "f" "a\nb" "a\nb\n" =
          "--- f\n+++ f (regenerated)\n" ++ String.join (script.map shownLine) := by
  have hcount : lineCount "a\nb" "a\nb\n" = 3 := by decide +kernel
  obtain ⟨script, hbefore, -, hafter, -, -, -, hreport, -⟩ :=
    report_accounts "f" (by omega : lineCount "a\nb" "a\nb\n" ≤ 55295)
  refine ⟨hcount, by decide +kernel, script, hbefore.trans ?_, hafter.trans ?_, hreport⟩
  · decide +kernel
  · decide +kernel

end NodeFamily.Difference
