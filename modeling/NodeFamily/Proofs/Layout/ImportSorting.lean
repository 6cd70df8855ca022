import Mathlib.Data.List.SplitBy
import Mathlib.Data.List.TakeWhile
import NodeFamily.Proofs.Layout.DeclReading
import NodeFamily.Proofs.Layout.FileWriting
import NodeFamily.Proofs.Layout.Places
import NodeFamily.Proofs.Layout.Unquoting

/-!
# Sorting the imports of a file

The standard layout sorts the imports of a run by what their literals stand for, and drops an import
before one that says the same. Imports on successive lines that are all different and have no
comments beside them change places, and nothing else does: the lines and the comments stay as they
are (`sortDecls_eq`).

The sorting compares imports and not paths, so it is carried over to the list of their paths
(`pathsOf_sorted`), where the order is that of texts.
-/

namespace NodeFamily.Layout.ImportOrder

open LineTable

variable {t : LineTable} {line : Nat}

/-! ## Paths -/

/-- The path of an import. -/
def pathOf (s : Spec) : String := (key s).1

/-- An import is bare when it has no name and no comment after it. -/
def IsBare (s : Spec) : Prop := (key s).2 = ("", "")

/-- A quoted path alone is a bare import of that path. -/
theorem key_path (pos : Nat) (kind : LiteralKind) (p : String) (stop : Nat) :
    key (.path none ⟨pos, kind, Text.quote p⟩ "" stop) = (p, "", "") := by
  simp [key, unquote?_quote]

/-- Bare imports are in the order of their paths. -/
theorem isOrdered_of_isBare {a b : Spec} (ha : IsBare a) (hb : IsBare b) :
    isOrdered (key a) (key b) = decide (pathOf a ≤ pathOf b) := by
  unfold isOrdered pathOf
  rw [ha, hb]
  by_cases heq : (key a).1 = (key b).1
  · simp [heq]
  · have hiff : (key a).1 < (key b).1 ↔ (key a).1 ≤ (key b).1 :=
      ⟨Std.le_of_lt, fun hle => Std.lt_of_le_of_ne hle heq⟩
    simp [heq, hiff]

/-- The paths of imports. -/
def pathsOf (specs : List Indexed) : List String := specs.map fun a => pathOf a.2

/-- The paths of one more import. -/
@[simp]
theorem pathsOf_cons (a : Indexed) (specs : List Indexed) :
    pathsOf (a :: specs) = pathOf a.2 :: pathsOf specs := rfl

/-- Imports with the indices they had. -/
def indexed (specs : List Spec) : List Indexed := specs.zipIdx.map fun (s, i) => (i, s)

/-- Imports in the order of the layout. -/
def sorted (specs : List Spec) : List Indexed :=
  (indexed specs).mergeSort fun a b => isOrdered (key a.2) (key b.2)

/-- The paths of imports with their indices. -/
theorem pathsOf_indexed (specs : List Spec) : pathsOf (indexed specs) = specs.map pathOf := by
  have hfst : specs.map pathOf = (specs.zipIdx.map Prod.fst).map pathOf := by simp
  rw [hfst, pathsOf, indexed, List.map_map, List.map_map]
  rfl

/-- Bare imports are bare with their indices. -/
theorem isBare_of_mem_indexed {specs : List Spec} (hbare : ∀ s ∈ specs, IsBare s) :
    ∀ a ∈ indexed specs, IsBare a.2 := by
  intro a ha
  obtain ⟨⟨s, i⟩, hs, rfl⟩ := List.mem_map.1 ha
  exact hbare s (List.fst_mem_of_mem_zipIdx hs)

/-- The order of bare imports is that of their paths. -/
theorem pathsOf_sorted {specs : List Spec} (hbare : ∀ s ∈ specs, IsBare s) :
    pathsOf (sorted specs) = (specs.map pathOf).mergeSort fun p q => decide (p ≤ q) := by
  have hindexed := isBare_of_mem_indexed hbare
  rw [← pathsOf_indexed, pathsOf, sorted, pathsOf]
  exact List.map_mergeSort fun a ha b hb => isOrdered_of_isBare (hindexed a ha) (hindexed b hb)

/-! ## Runs -/

/-- Different imports are all kept. -/
theorem withoutRepeated_of_nodup {specs : List Indexed} (h : (pathsOf specs).Nodup) :
    withoutRepeated t specs = (t, specs) := by
  fun_induction withoutRepeated t specs with
  | case1 t a b rest hrepeated ih =>
    have hpath : pathOf a.2 = pathOf b.2 := by
      unfold isRepeated at hrepeated
      simp only [Bool.and_eq_true, beq_iff_eq] at hrepeated
      exact hrepeated.1.1
    rw [pathsOf_cons, pathsOf_cons, hpath] at h
    exact absurd List.mem_cons_self (List.nodup_cons.1 h).1
  | case2 t a b rest hrepeated t' kept hkept ih =>
    rw [ih (List.nodup_cons.1 h).2, Prod.mk.injEq] at hkept
    rw [hkept.1, hkept.2]
  | case3 t specs hshort => rfl

/-- Where the imports of a run stand. -/
def spansOf (specs : List Spec) : List (Nat × Nat) := specs.map fun s => (s.start, s.stop)

/-- Where the comments that a run may move end. -/
def runEnd (t : LineTable) (specs : List Spec) : Nat :=
  let stop := ((spansOf specs).getLast?.map Prod.snd).getD 0
  if t.line stop == t.lineCount then stop else t.lineStart (t.line stop + 1)

/-- Different imports change places, and nothing else does when the comments before the end of the
run stand before the run. -/
theorem sortRun_of_nodup {groups : List (List Comment)} {first second : Spec} {rest : List Spec}
    (hpaths : (pathsOf (sorted (first :: second :: rest))).Nodup)
    (hgroups : ∀ g ∈ groups.takeWhile fun g => groupStop g < runEnd t (first :: second :: rest),
      groupStart g < t.lineStart (t.line first.start)) :
    sortRun t groups (first :: second :: rest) = (t, groups,
      ((sorted (first :: second :: rest)).zip (spansOf (first :: second :: rest))).map
        fun ((_, s), (start, stop)) => moveTo start stop s) := by
  have hkept := withoutRepeated_of_nodup (t := t) hpaths
  have hbefore := List.takeWhile_eq_self_iff.2 fun g hg => decide_eq_true (hgroups g hg)
  unfold runEnd spansOf at hbefore
  unfold sorted indexed at hkept ⊢
  unfold sortRun spansOf
  dsimp only at hbefore hkept ⊢
  rw [hkept, hbefore, List.drop_length]
  rw [assign, List.map_nil, List.mergeSort_nil, List.append_nil,
    List.prefix_iff_eq_append.1 (List.takeWhile_prefix _)]

/-! ## Imports on successive lines -/

/-- The trees of an import in quotes. -/
def IsQuoted (s : Spec) : Prop :=
  ∃ pos p, s = .path none ⟨pos, .text, Text.quote p⟩ "" 0 ∧
    ∀ c ∈ (Text.quote p).toList, Page.isBreak c = false

/-- Imports stand on successive lines. -/
def AreOnLines (t : LineTable) (line : Nat) (specs : List Spec) : Prop :=
  ∀ x ∈ specs.zipIdx line, t.IsOn x.2 x.1.start ∧ t.IsOn x.2 x.1.stop

/-- The trees of quoted imports on successive lines have their paths and stand there. -/
theorem areOnLines_of_isImport {paths : List String} {specs : List Spec}
    (h : List.Forall₂ (fun p s => IsImport t p.2 p.1 s) ((paths.map Text.quote).zipIdx line) specs) :
    specs.map pathOf = paths ∧ (∀ s ∈ specs, IsQuoted s) ∧ AreOnLines t line specs := by
  induction paths generalizing line specs with
  | nil =>
    obtain rfl : specs = [] := by simpa using h
    exact ⟨rfl, by simp, by simp [AreOnLines]⟩
  | cons p paths ih =>
    rw [List.map_cons, List.zipIdx_cons, List.forall₂_cons_left_iff] at h
    obtain ⟨s, rest, ⟨hpos⟩, hrest, rfl⟩ := h
    next pos =>
      obtain ⟨hpaths, hquoted, hlines⟩ := ih hrest
      refine ⟨?_, List.forall_mem_cons.2 ⟨⟨pos, p, rfl, hpos.unbroken⟩, hquoted⟩, ?_⟩
      · rw [List.map_cons, hpaths, pathOf, key_path]
      · rw [AreOnLines, List.zipIdx_cons, List.forall_mem_cons]
        refine ⟨⟨hpos.isOn, ⟨hpos.isLine, ?_, hpos.stop⟩⟩, hlines⟩
        have hle : pos ≤ pos + octets (Text.quote p).toList := Nat.le_add_right _ _
        exact Nat.lt_of_lt_of_le hpos.isPosition hle

/-- Imports on successive lines are one run. -/
theorem runs_of_areOnLines {specs : List Spec} (hne : specs ≠ []) (h : AreOnLines t line specs) :
    runs t specs = [specs] := by
  refine List.splitBy_of_isChain hne ?_
  clear hne
  induction specs generalizing line with
  | nil => exact .nil
  | cons s specs ih =>
    rw [AreOnLines, List.zipIdx_cons, List.forall_mem_cons] at h
    cases specs with
    | nil => exact .singleton s
    | cons s' specs =>
      refine .cons_cons ?_ (ih h.2)
      have hnext := h.2 (s', line + 1) (by simp)
      rw [hnext.1.line_eq, h.1.2.line_eq]
      simp

/-- Imports moved to the places of imports on successive lines stand there. -/
theorem forall₂_isMovedImport {as : List Indexed} {specs : List Spec}
    (hlength : as.length = specs.length) (hquoted : ∀ a ∈ as, IsQuoted a.2)
    (h : AreOnLines t line specs) :
    List.Forall₂ (fun p s => IsMovedImport t p.2 p.1 s) ((pathsOf as).zipIdx line)
      ((as.zip (spansOf specs)).map fun ((_, s), (start, stop)) => moveTo start stop s) := by
  induction as generalizing line specs with
  | nil => exact .nil
  | cons a as ih =>
    cases specs with
    | nil => exact absurd hlength (Nat.succ_ne_zero _)
    | cons s specs =>
      rw [AreOnLines, List.zipIdx_cons, List.forall_mem_cons] at h
      rw [List.forall_mem_cons] at hquoted
      obtain ⟨i, _⟩ := a
      obtain ⟨⟨pos, p, rfl, hunbroken⟩, hquoted⟩ := hquoted
      rw [pathsOf_cons, List.zipIdx_cons]
      refine .cons ?_ (ih (Nat.succ.inj hlength) hquoted h.2)
      rw [pathOf, key_path]
      exact .mk hunbroken h.1.1 (.inr h.1.2)

/-- The last one of imports on successive lines stands on the last line. -/
theorem line_of_getLast? {paths : List String} {specs : List Spec}
    (h : List.Forall₂ (fun p s => IsMovedImport t p.2 p.1 s) (paths.zipIdx line) specs) :
    ∀ s ∈ specs.getLast?, t.line s.start + 1 = line + paths.length := by
  induction paths generalizing line specs with
  | nil =>
    obtain rfl : specs = [] := by simpa using h
    simp
  | cons p paths ih =>
    rw [List.zipIdx_cons, List.forall₂_cons_left_iff] at h
    obtain ⟨s, rest, hs, hrest, rfl⟩ := h
    cases rest with
    | nil =>
      obtain rfl : paths = [] := by simpa using hrest
      obtain ⟨-, hpos, -⟩ := hs
      intro s' hs'
      obtain rfl := Option.some.inj hs'
      exact congrArg (· + 1) hpos.line_eq
    | cons next rest =>
      rw [List.getLast?_cons_cons, List.length_cons]
      intro s' hs'
      have hlast := ih hrest s' hs'
      omega

/-- What closes imports stays on its line when that is the one after the last import. -/
theorem closeUp_eq {last closing fuel : Nat} (h : t.line closing ≤ t.line last + 1) :
    closeUp last closing fuel t = t := by
  cases fuel with
  | zero => rfl
  | succ fuel =>
    unfold closeUp
    dsimp only
    rw [if_neg (Nat.not_lt.2 h)]

/-! ## Import declarations -/

/-- Of the groups of comments in a text the first one starts before a line, and the second one ends
after another. -/
inductive AreApart (t : LineTable) (first last : Nat) : List (List Comment) → Prop
  | mk {g : List Comment} {rest : List (List Comment)} : 0 < groupStart g →
      t.line (groupStart g) < first →
      (∀ g' ∈ rest.head?, 0 < groupStop g' ∧ last < t.line (groupStop g')) →
      AreApart t first last (g :: rest)

/-- The comments that a run may move end with its last line. -/
theorem runEnd_le {cs : List Char} {specs : List Spec} {pos : Nat} (hne : specs ≠ [])
    (hlines : AreOnLines (ofText cs) line specs) (hpos : 0 < pos)
    (h : line + (specs.length - 1) < (ofText cs).line pos) : runEnd (ofText cs) specs ≤ pos := by
  obtain ⟨s, hs⟩ := Option.ne_none_iff_exists'.1 (mt List.getLast?_eq_none_iff.1 hne)
  have hmem : (s, line + (specs.length - 1)) ∈ specs.zipIdx line := by
    rwa [List.mk_add_mem_zipIdx_iff_getElem?, ← List.getLast?_eq_getElem?]
  have hstop : (ofText cs).IsOn (line + (specs.length - 1)) s.stop := (hlines _ hmem).2
  have hline := hstop.line_eq
  have hspan : ((spansOf specs).getLast?.map Prod.snd).getD 0 = s.stop := by
    simp [spansOf, List.getLast?_map, hs]
  unfold runEnd
  dsimp only
  rw [hspan]
  split
  · by_contra hlt
    have hle : (ofText cs).line pos ≤ (ofText cs).line s.stop :=
      line_mono hpos (Nat.le_of_lt (Nat.lt_of_not_le hlt))
    omega
  · exact lineStart_le hpos (by omega)

/-- The comments before the end of a run stand before the run. -/
theorem AreApart.lt_lineStart {cs : List Char} {groups : List (List Comment)} {specs : List Spec}
    {s : Spec} (hs : s ∈ specs.head?) (hlines : AreOnLines (ofText cs) line specs)
    (h : AreApart (ofText cs) line (line + (specs.length - 1)) groups) :
    ∀ g ∈ groups.takeWhile fun g => groupStop g < runEnd (ofText cs) specs,
      groupStart g < (ofText cs).lineStart ((ofText cs).line s.start) := by
  obtain @⟨g, rest, hpos, hline, hnext⟩ := h
  have hmem : (s, line + 0) ∈ specs.zipIdx line := by
    rwa [List.mk_add_mem_zipIdx_iff_getElem?, ← List.head?_eq_getElem?]
  have hstart : (ofText cs).IsOn line s.start := (hlines _ hmem).1
  have hne : specs ≠ [] := by
    rintro rfl
    cases hs
  -- The second group is after the run, so that no group after the first one is reached.
  have hrest : rest.takeWhile (fun g => decide (groupStop g < runEnd (ofText cs) specs)) = [] := by
    cases rest with
    | nil => rfl
    | cons g' rest =>
      obtain ⟨hpos', hline'⟩ := hnext g' rfl
      have hle := runEnd_le hne hlines hpos' hline'
      exact List.takeWhile_cons_of_neg (by simpa using hle)
  intro g' hg'
  rw [List.takeWhile_cons, hrest] at hg'
  obtain rfl : g' = g := by
    split at hg'
    · exact List.mem_singleton.1 hg'
    · exact absurd hg' List.not_mem_nil
  have hfirst : (ofText cs).line (groupStart g') < (ofText cs).line s.start := by
    rwa [hstart.line_eq]
  exact LineTable.lt_lineStart hpos hstart.isPosition hfirst

/-- Imports that are all different are sorted by their paths, and nothing else changes. -/
theorem sortRun_eq {cs : List Char} {paths : List String} {groups : List (List Comment)}
    {specs : List Spec} (hnodup : paths.Nodup)
    (h : List.Forall₂ (fun p s => IsImport (ofText cs) p.2 p.1 s)
      ((paths.map Text.quote).zipIdx line) specs)
    (hgroups : AreApart (ofText cs) line (line + (paths.length - 1)) groups) :
    ∃ specs', sortRun (ofText cs) groups specs = (ofText cs, groups, specs') ∧
      List.Forall₂ (fun p s => IsMovedImport (ofText cs) p.2 p.1 s)
        ((paths.mergeSort fun p q => decide (p ≤ q)).zipIdx line) specs' := by
  obtain ⟨hpaths, hquoted, hlines⟩ := areOnLines_of_isImport h
  have hlength : specs.length = paths.length := by rw [← hpaths, List.length_map]
  have hbare : ∀ s ∈ specs, IsBare s := by
    intro s hs
    obtain ⟨pos, p, rfl, -⟩ := hquoted s hs
    rw [IsBare, key_path]
  have hsorted : pathsOf (sorted specs) = paths.mergeSort fun p q => decide (p ≤ q) := by
    rw [pathsOf_sorted hbare, hpaths]
  match specs with
  | [] =>
    obtain rfl : paths = [] := List.length_eq_zero_iff.1 hlength.symm
    exact ⟨[], rfl, by simp⟩
  | [s] =>
    obtain ⟨p, rfl⟩ : ∃ p, paths = [p] := List.length_eq_one_iff.1 hlength.symm
    refine ⟨[s], rfl, ?_⟩
    rw [List.mergeSort_singleton]
    refine .cons ?_ .nil
    obtain ⟨hpos⟩ := (List.forall₂_cons.1 h).1
    exact .mk hpos.unbroken hpos.isOn (.inl rfl)
  | first :: second :: rest =>
    refine ⟨_, sortRun_of_nodup ?_ (AreApart.lt_lineStart rfl hlines ?_), ?_⟩
    · rw [hsorted]
      exact (List.mergeSort_perm _ _).nodup_iff.2 hnodup
    · rwa [hlength]
    · rw [← hsorted]
      refine forall₂_isMovedImport (by simp [sorted, indexed]) (fun a ha => ?_) hlines
      obtain ⟨⟨s, i⟩, hs, rfl⟩ := List.mem_map.1 (List.mem_mergeSort.1 ha)
      exact hquoted s (List.fst_mem_of_mem_zipIdx hs)

/-- The declarations after the imports stay as they are. -/
theorem sortDecls_of_keyword {groups : List (List Comment)} {decls : List Decl}
    (h : ∀ decl ∈ decls.head?, decl.keyword ≠ "import") :
    sortDecls t groups decls = (t, groups, decls) := by
  fun_cases sortDecls t groups decls <;> simp_all [Decl.keyword]

/-- The imports of a file that are all different are sorted by their paths, and nothing else
changes. -/
theorem sortDecls_eq {cs : List Char} {paths : List String} {groups : List (List Comment)}
    {imports others : List Decl} (hnodup : paths.Nodup)
    (himports : AreImports (ofText cs) line (paths.map Text.quote) imports)
    (hothers : ∀ decl ∈ others.head?, decl.keyword ≠ "import")
    (hgroups : AreApart (ofText cs) (line + 1) (line + paths.length) groups) :
    ∃ imports', sortDecls (ofText cs) groups (imports ++ others) =
        (ofText cs, groups, imports' ++ others) ∧
      MayBeSortedImports (ofText cs) line (paths.mergeSort fun p q => decide (p ≤ q)) imports' := by
  generalize hquoted : paths.map Text.quote = quoted at himports
  cases himports with
  | nil =>
    obtain rfl : paths = [] := List.map_eq_nil_iff.1 hquoted
    exact ⟨[], sortDecls_of_keyword hothers, by simpa using MayBeSortedImports.nil⟩
  | imports hne hdecl =>
    subst hquoted
    obtain @⟨documented, start, opening, closing, specs, hstart, hopening, hspecs, hclosing⟩ := hdecl
    rw [List.length_map] at hclosing
    have hpaths : paths ≠ [] := by simpa using hne
    -- The first import is on the line after the parenthesis, and the last one where the paths end.
    have hlast : line + paths.length = line + 1 + (paths.length - 1) := by
      have hpos := List.length_pos_of_ne_nil hpaths
      omega
    rw [hlast] at hgroups
    obtain ⟨specs', hsort, hmoved⟩ := sortRun_eq hnodup hspecs hgroups
    have hruns : runs (ofText cs) specs = [specs] := by
      obtain ⟨hmap, -, hlines⟩ := areOnLines_of_isImport hspecs
      refine runs_of_areOnLines ?_ hlines
      rintro rfl
      exact hpaths hmap.symm
    have hclose : ∀ s, specs'.getLast? = some s →
        closeUp s.start closing (ofText cs).lineCount (ofText cs) = ofText cs := by
      intro s hs
      have hline := line_of_getLast? hmoved s hs
      rw [List.length_mergeSort] at hline
      exact closeUp_eq (by rw [hclosing.start]; omega)
    refine ⟨[.general documented ⟨start, closing + 1⟩ "import" opening specs' closing], ?_,
      .imports ?_ ?_⟩
    · have hopening : (opening == 0) = false := by simpa using Nat.ne_of_gt hopening.isPosition
      rw [List.singleton_append, sortDecls]
      simp only [hopening, hruns, sortRuns, hsort, List.append_nil, sortDecls_of_keyword hothers,
        Bool.false_eq_true, if_false, List.singleton_append]
      refine Prod.ext ?_ rfl
      dsimp only
      split
      · next s hs => exact hclose s hs
      · rfl
    · rwa [ne_eq, ← List.length_eq_zero_iff, List.length_mergeSort, List.length_eq_zero_iff]
    · refine .mk hstart hopening hmoved ?_
      rwa [List.length_mergeSort]

end NodeFamily.Layout.ImportOrder
