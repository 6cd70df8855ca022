import NodeFamily.Layout.Place
import Mathlib.Data.List.Basic

/-!
# The places of a text

Where the characters of a text stand: `place_ofText` gives the place of everything on a line, its
end included, from what stands before the line. The line table is filled offset by offset, so that
the first step is to say what it holds at one offset (`getElem?_placesFrom`).
-/

namespace NodeFamily.Layout

/-! ## Octets -/

/-- The octets of a text are counted from any number on. -/
theorem foldl_octets (n : Nat) (cs : List Char) :
    cs.foldl (fun n c => n + c.utf8Size) n = n + octets cs := by
  induction cs generalizing n with
  | nil => rfl
  | cons c cs ih =>
    rw [octets, List.foldl_cons, List.foldl_cons, ih, ih]
    omega

@[simp]
theorem octets_nil : octets [] = 0 := rfl

@[simp]
theorem octets_cons (c : Char) (cs : List Char) : octets (c :: cs) = c.utf8Size + octets cs := by
  rw [octets, List.foldl_cons, foldl_octets, Nat.zero_add]

@[simp]
theorem octets_append (cs ds : List Char) : octets (cs ++ ds) = octets cs + octets ds := by
  rw [octets, List.foldl_append, foldl_octets]
  rfl

/-! ## Line breaks -/

/-- The offsets after the line breaks of two texts one after the other. -/
theorem offsetsAfterBreaks_append (o : Nat) (cs ds : List Char) :
    offsetsAfterBreaks o (cs ++ ds) =
      offsetsAfterBreaks o cs ++ offsetsAfterBreaks (o + octets cs) ds := by
  induction cs generalizing o with
  | nil => rfl
  | cons c cs ih =>
    simp only [List.cons_append, offsetsAfterBreaks, ih, octets_cons, Nat.add_assoc]
    split <;> rfl

/-- A line break is in the text before the offset after it. -/
theorem mem_offsetsAfterBreaks {o next : Nat} {cs : List Char}
    (h : next ∈ offsetsAfterBreaks o cs) : o < next ∧ next ≤ o + octets cs := by
  induction cs generalizing o with
  | nil => exact absurd h List.not_mem_nil
  | cons c cs ih =>
    have hpos := c.utf8Size_pos
    rw [octets_cons]
    simp only [offsetsAfterBreaks] at h
    have hrest : next ∈ offsetsAfterBreaks (o + c.utf8Size) cs →
        o < next ∧ next ≤ o + (c.utf8Size + octets cs) := by
      intro h
      have := ih h
      omega
    split at h
    · rcases List.mem_cons.1 h with rfl | h
      · omega
      · exact hrest h
    · exact hrest h

/-- The offsets after line breaks ascend. -/
theorem pairwise_offsetsAfterBreaks (o : Nat) (cs : List Char) :
    (offsetsAfterBreaks o cs).Pairwise (· < ·) := by
  induction cs generalizing o with
  | nil => exact .nil
  | cons c cs ih =>
    simp only [offsetsAfterBreaks]
    split
    · exact .cons (fun next h => (mem_offsetsAfterBreaks h).1) (ih _)
    · exact ih _

/-- A line has no line break in it. -/
theorem offsetsAfterBreaks_line (o : Nat) {line : List Char} (h : '\n' ∉ line) :
    offsetsAfterBreaks o line = [] := by
  induction line generalizing o with
  | nil => rfl
  | cons c line ih =>
    rw [List.mem_cons, not_or] at h
    have hc : (c == '\n') = false := by simpa using Ne.symm h.1
    simp only [offsetsAfterBreaks, hc, Bool.false_eq_true, if_false, ih _ h.2]

/-! ## The line table -/

/-- The places that are put into the line table, in order. -/
def placeList (offset line start : Nat) (later : List Nat) : (count : Nat) → List Place
  | 0 => []
  | count + 1 =>
    match later with
    | next :: later' =>
      if next ≤ offset then
        ⟨offset, line + 1, offset - next + 1⟩ :: placeList (offset + 1) (line + 1) next later' count
      else ⟨offset, line, offset - start + 1⟩ :: placeList (offset + 1) line start later count
    | [] => ⟨offset, line, offset - start + 1⟩ :: placeList (offset + 1) line start [] count

/-- The line table holds the places that are put into it. -/
theorem toList_placesFrom (offset line start : Nat) (later : List Nat) (done : Array Place)
    (count : Nat) : (placesFrom offset line start later done count).toList =
      done.toList ++ placeList offset line start later count := by
  induction count generalizing offset line start later done with
  | zero => simp [placesFrom, placeList]
  | succ count ih =>
    cases later with
    | nil => simp [placesFrom, placeList, ih]
    | cons next later =>
      simp only [placesFrom, placeList]
      split
      · simp [ih]
      · simp [ih]

@[simp]
theorem length_placeList (offset line start : Nat) (later : List Nat) (count : Nat) :
    (placeList offset line start later count).length = count := by
  induction count generalizing offset line start later with
  | zero => rfl
  | succ count ih =>
    cases later with
    | nil => simp [placeList, ih]
    | cons next later =>
      simp only [placeList]
      split
      · simp [ih]
      · simp [ih]

/-- No number is up to one below all of them. -/
theorem filter_le_eq_nil {ms : List Nat} {n : Nat} (h : ∀ m ∈ ms, n < m) :
    ms.filter (· ≤ n) = [] := by
  simpa [List.filter_eq_nil_iff] using h

/-- The place of an offset: its line is as many lines on as lines start up to it, and its column is
counted from the last of these starts. -/
theorem getElem?_placeList {offset line start : Nat} {later : List Nat} {count i : Nat}
    (hi : i < count) (hlater : ∀ next ∈ later, offset ≤ next) (hsorted : later.Pairwise (· < ·)) :
    (placeList offset line start later count)[i]? =
      let started := later.filter (· ≤ offset + i)
      some ⟨offset + i, line + started.length, offset + i - started.getLastD start + 1⟩ := by
  -- The induction is on the places to put; a start at the offset at hand is passed by.
  induction count generalizing offset line start later i with
  | zero => exact absurd hi (Nat.not_lt_zero _)
  | succ count ih =>
    cases later with
    | nil =>
      cases i with
      | zero => simp [placeList]
      | succ i =>
        have := @ih (offset + 1) line start [] i (by omega) (by simp) .nil
        simp only [placeList, List.getElem?_cons_succ, this, List.filter_nil]
        simp [Nat.add_comm, Nat.add_left_comm]
    | cons next later =>
      rw [List.pairwise_cons] at hsorted
      rw [List.forall_mem_cons] at hlater
      by_cases hnext : next ≤ offset
      · obtain rfl : next = offset := Nat.le_antisymm hnext hlater.1
        simp only [placeList, Nat.le_refl, if_true]
        cases i with
        | zero =>
          have hnone : later.filter (· ≤ next + 0) = [] := filter_le_eq_nil hsorted.1
          rw [List.getElem?_cons_zero, List.filter_cons_of_pos (by simp), hnone]
          simp
        | succ i =>
          have hrest := @ih (next + 1) (line + 1) next later i (by omega)
            (fun m hm => hsorted.1 m hm) hsorted.2
          rw [List.getElem?_cons_succ, hrest, List.filter_cons_of_pos (by simp)]
          have hlast : ∀ (ms : List Nat), (next :: ms).getLastD start = ms.getLastD next := by
            intro ms
            cases ms <;> rfl
          simp only [hlast, List.length_cons]
          congr 2 <;> grind
      · simp only [placeList, hnext, if_false]
        have hlater' : ∀ m ∈ next :: later, offset < m :=
          List.forall_mem_cons.2 ⟨Nat.lt_of_not_le hnext,
            fun m hm => Nat.lt_trans (Nat.lt_of_not_le hnext) (hsorted.1 m hm)⟩
        cases i with
        | zero =>
          have hnone : (next :: later).filter (· ≤ offset + 0) = [] := filter_le_eq_nil hlater'
          rw [List.getElem?_cons_zero, hnone]
          simp
        | succ i =>
          have hrest := @ih (offset + 1) line start (next :: later) i (by omega) hlater'
            (List.pairwise_cons.2 hsorted)
          rw [List.getElem?_cons_succ, hrest]
          simp only [Nat.add_assoc, Nat.add_comm 1 i]

namespace LineTable

/-- The starts of the lines of a text after the first one. -/
def startsOf (cs : List Char) : List Nat := (offsetsAfterBreaks 0 cs).filter (· < octets cs)

/-- The lines that start up to an offset. -/
def started (cs : List Char) (o : Nat) : List Nat := (startsOf cs).filter (· ≤ o)

/-- A text has a place for each of its octets, and one for its end. -/
theorem size_ofText (cs : List Char) : (ofText cs).size = octets cs := by
  rw [size, ofText, ofStarts, ← Array.length_toList, toList_placesFrom]
  simp

/-- The place of an offset of a text. -/
theorem place_ofText (cs : List Char) {o : Nat} (h : o ≤ octets cs) :
    (ofText cs).place (o + 1) =
      ⟨o, (started cs o).length + 1, o - (started cs o).getLastD 0 + 1⟩ := by
  have hstarts := (pairwise_offsetsAfterBreaks 0 cs).filter (· < octets cs)
  rw [place, if_neg (Nat.succ_ne_zero o), size_ofText, Nat.add_sub_cancel, Nat.min_eq_left h,
    Array.getD_eq_getD_getElem?, ← Array.getElem?_toList, ofText, ofStarts, toList_placesFrom]
  simp only [List.drop_succ_cons, List.drop_zero, List.nil_append, Array.mkEmpty_eq]
  rw [getElem?_placeList (Nat.lt_succ_of_le h) (fun _ _ => Nat.zero_le _) hstarts]
  simp [started, startsOf, Nat.add_comm]

/-- The place of a position is that of its offset, as far as the text goes. -/
theorem place_of_pos (cs : List Char) {pos : Nat} (h : 0 < pos) :
    (ofText cs).place pos =
      ⟨min (pos - 1) (octets cs), (started cs (min (pos - 1) (octets cs))).length + 1,
        min (pos - 1) (octets cs) - (started cs (min (pos - 1) (octets cs))).getLastD 0 + 1⟩ := by
  have hplace := place_ofText cs (Nat.min_le_right (pos - 1) (octets cs))
  rw [place, if_neg (by omega), size_ofText] at hplace ⊢
  rw [Nat.add_sub_cancel, Nat.min_eq_left (Nat.min_le_right _ _)] at hplace
  rw [hplace]

/-- The line of a position is one more than the number of lines that start before it. -/
theorem line_ofText (cs : List Char) {pos : Nat} (h : 0 < pos) :
    (ofText cs).line pos = (started cs (min (pos - 1) (octets cs))).length + 1 := by
  rw [line, place_of_pos cs h]

/-- The lines that start up to an offset are among those that start up to a later one. -/
theorem started_sublist (cs : List Char) {o o' : Nat} (h : o ≤ o') :
    (started cs o).Sublist (started cs o') := by
  refine List.monotone_filter_right _ fun m hm => ?_
  simp only [decide_eq_true_eq] at hm ⊢
  omega

/-- What comes later in a text stands on no earlier line. -/
theorem line_mono {cs : List Char} {pos pos' : Nat} (hpos : 0 < pos) (h : pos ≤ pos') :
    (ofText cs).line pos ≤ (ofText cs).line pos' := by
  rw [line_ofText cs hpos, line_ofText cs (Nat.lt_of_lt_of_le hpos h), Nat.add_le_add_iff_right]
  exact (started_sublist cs (by omega)).length_le

/-- What stands on an earlier line has a smaller offset. -/
theorem offset_lt_of_line_lt {cs : List Char} {pos pos' : Nat} (hpos : 0 < pos) (hpos' : 0 < pos')
    (h : (ofText cs).line pos < (ofText cs).line pos') :
    ((ofText cs).place pos).offset < ((ofText cs).place pos').offset := by
  rw [line_ofText cs hpos, line_ofText cs hpos'] at h
  rw [place_of_pos cs hpos, place_of_pos cs hpos']
  dsimp only
  by_contra hge
  have hle := (started_sublist cs (Nat.le_of_not_lt hge)).length_le
  omega

/-- The line of an offset starts at or before it. -/
theorem getLastD_started_le (cs : List Char) (o : Nat) : (started cs o).getLastD 0 ≤ o := by
  cases h : (started cs o).getLast? with
  | none => simp [List.getLast?_eq_none_iff.1 h]
  | some m =>
    have hm := (List.mem_filter.1 (List.mem_of_getLast? h)).2
    rw [List.getLastD_eq_getLast?, h]
    simpa using hm

/-- Places on one line with one column are the same. -/
theorem place_eq_of_column {cs : List Char} {pos pos' : Nat} (hpos : 0 < pos) (hpos' : 0 < pos')
    (hline : (ofText cs).line pos = (ofText cs).line pos')
    (hcolumn : ((ofText cs).place pos).column = ((ofText cs).place pos').column) :
    (ofText cs).place pos = (ofText cs).place pos' := by
  rw [line_ofText cs hpos, line_ofText cs hpos'] at hline
  rw [place_of_pos cs hpos, place_of_pos cs hpos'] at hcolumn ⊢
  generalize min (pos - 1) (octets cs) = o at *
  generalize min (pos' - 1) (octets cs) = o' at *
  dsimp only at hline hcolumn
  have hsame : started cs o = started cs o' := by
    rcases Nat.le_total o o' with hle | hle
    · exact (started_sublist cs hle).eq_of_length (by omega)
    · exact ((started_sublist cs hle).eq_of_length (by omega)).symm
  have hle := getLastD_started_le cs o
  have hle' := getLastD_started_le cs o'
  rw [hsame] at hle hcolumn ⊢
  obtain rfl : o = o' := by omega
  rfl

/-- The lines that start up to an offset on a line are those that start in what stands before the
line. -/
theorem started_line {before line : List Char} (hline : '\n' ∉ line) {k : Nat}
    (hk : k ≤ octets line) (after : List Char) :
    started (before ++ (line ++ '\n' :: after)) (octets before + k) =
      offsetsAfterBreaks 0 before := by
  have hsize : (Char.utf8Size '\n') = 1 := by decide
  rw [started, startsOf, List.filter_filter, offsetsAfterBreaks_append, offsetsAfterBreaks_append,
    offsetsAfterBreaks_line _ hline, List.nil_append, List.filter_append]
  have hkept : (offsetsAfterBreaks 0 before).filter (fun m => decide (m ≤ octets before + k) &&
      decide (m < octets (before ++ (line ++ '\n' :: after)))) = offsetsAfterBreaks 0 before := by
    rw [List.filter_eq_self]
    intro m hm
    have hm := (mem_offsetsAfterBreaks hm).2
    simp only [octets_append, octets_cons, hsize, Bool.and_eq_true, decide_eq_true_eq]
    omega
  have hdropped : (offsetsAfterBreaks (0 + octets before + octets line) ('\n' :: after)).filter
      (fun m => decide (m ≤ octets before + k) &&
        decide (m < octets (before ++ (line ++ '\n' :: after)))) = [] := by
    rw [List.filter_eq_nil_iff]
    intro m hm
    have hm := (mem_offsetsAfterBreaks hm).1
    simp only [Bool.and_eq_true, decide_eq_true_eq, not_and]
    omega
  rw [hkept, hdropped, List.append_nil]

/-- Each of several lines has one line break, and the last one ends them. -/
theorem offsetsAfterBreaks_lines {ls : List (List Char)} (h : ∀ l ∈ ls, '\n' ∉ l) (o start : Nat) :
    (offsetsAfterBreaks o (ls.flatMap (· ++ ['\n']))).length = ls.length ∧
      (start = o →
        (offsetsAfterBreaks o (ls.flatMap (· ++ ['\n']))).getLastD start =
          o + octets (ls.flatMap (· ++ ['\n']))) := by
  have hsize : (Char.utf8Size '\n') = 1 := by decide
  induction ls generalizing o start with
  | nil => simp [offsetsAfterBreaks]
  | cons l ls ih =>
    rw [List.forall_mem_cons] at h
    have hrest := ih h.2 (o + octets l + 1) (o + octets l + 1)
    have hcons : offsetsAfterBreaks o ((l :: ls).flatMap (· ++ ['\n'])) = (o + octets l + 1) ::
        offsetsAfterBreaks (o + octets l + 1) (ls.flatMap (· ++ ['\n'])) := by
      rw [List.flatMap_cons, List.append_assoc, offsetsAfterBreaks_append,
        offsetsAfterBreaks_line _ h.1, List.nil_append, List.singleton_append]
      simp [offsetsAfterBreaks, hsize]
    rw [hcons]
    refine ⟨by simp [hrest.1], fun _ => ?_⟩
    have hlast : ∀ (m : Nat) (ms : List Nat), (m :: ms).getLastD start = ms.getLastD m := by
      intro m ms
      cases ms <;> rfl
    rw [hlast, hrest.2 rfl, List.flatMap_cons]
    simp only [octets_append, octets_cons, octets_nil, hsize]
    omega

/-- Where the characters of a line and its end stand, when whole lines stand before it. -/
theorem place_of_line {ls : List (List Char)} (hls : ∀ l ∈ ls, '\n' ∉ l) {line : List Char}
    (hline : '\n' ∉ line) {k : Nat} (hk : k ≤ octets line) (after : List Char) :
    (ofText (ls.flatMap (· ++ ['\n']) ++ (line ++ '\n' :: after))).place
        (octets (ls.flatMap (· ++ ['\n'])) + k + 1) =
      ⟨octets (ls.flatMap (· ++ ['\n'])) + k, ls.length + 1, k + 1⟩ := by
  obtain ⟨hlength, hlast⟩ := offsetsAfterBreaks_lines hls 0 0
  rw [place_ofText _ (by simp only [octets_append]; omega), started_line hline hk, hlength,
    hlast rfl]
  congr 1
  omega

/-! ## Starts of lines -/

/-- The lines that start up to an offset are the first ones. -/
theorem lt_length_started_iff (cs : List Char) (o : Nat) {i : Nat} (hi : i < (startsOf cs).length) :
    i < (started cs o).length ↔ (startsOf cs)[i] ≤ o := by
  have hsorted : (startsOf cs).Pairwise (· < ·) :=
    (pairwise_offsetsAfterBreaks 0 cs).filter (· < octets cs)
  unfold started
  generalize startsOf cs = starts at hi hsorted
  induction starts generalizing i with
  | nil => exact absurd hi (Nat.not_lt_zero i)
  | cons m starts ih =>
    obtain ⟨hfirst, hsorted⟩ := List.pairwise_cons.1 hsorted
    by_cases hm : m ≤ o
    · rw [List.filter_cons_of_pos (by simpa using hm)]
      cases i with
      | zero => simpa using hm
      | succ i => simpa using ih (by simpa using hi) hsorted
    · -- No later line starts before the first one does.
      have hnone : starts.filter (· ≤ o) = [] := by
        rw [List.filter_eq_nil_iff]
        intro m' hm'
        have hlt := hfirst m' hm'
        simp only [decide_eq_true_eq]
        omega
      rw [List.filter_cons_of_neg (by simpa using hm), hnone]
      have hlt : o < (m :: starts)[i] := by
        rcases List.mem_cons.1 (List.getElem_mem hi) with heq | hmem
        · rw [heq]
          exact Nat.lt_of_not_le hm
        · exact Nat.lt_trans (Nat.lt_of_not_le hm) (hfirst _ hmem)
      simpa using hlt

/-- A line starts at or before what stands on it or on a later one. -/
theorem lineStart_le {cs : List Char} {line pos : Nat} (hpos : 0 < pos)
    (h : line ≤ (ofText cs).line pos) : (ofText cs).lineStart line ≤ pos := by
  rw [line_ofText cs hpos] at h
  unfold lineStart ofText ofStarts
  dsimp only
  rcases Nat.lt_or_ge 1 line with hline | hline
  · obtain ⟨i, rfl⟩ := Nat.exists_eq_add_of_lt hline
    have hstarted : i < (started cs (min (pos - 1) (octets cs))).length := by omega
    have hi : i < (startsOf cs).length :=
      Nat.lt_of_lt_of_le hstarted (List.length_filter_le _ _)
    have hle := (lt_length_started_iff cs _ hi).1 hstarted
    have hget : (0 :: startsOf cs).getD (1 + i + 1 - 1) 0 = (startsOf cs)[i] := by
      rw [Nat.add_sub_cancel, Nat.add_comm, List.getD_cons_succ, List.getD_eq_getElem?_getD,
        List.getElem?_eq_getElem hi, Option.getD_some]
    unfold startsOf at hget hle
    omega
  · have hget : (0 :: startsOf cs).getD (line - 1) 0 = 0 := by
      rw [Nat.sub_eq_zero_of_le hline, List.getD_cons_zero]
    unfold startsOf at hget
    omega

/-- What stands before a line stands before its start. -/
theorem lt_lineStart {cs : List Char} {pos pos' : Nat} (hpos : 0 < pos) (hpos' : 0 < pos')
    (h : (ofText cs).line pos < (ofText cs).line pos') :
    pos < (ofText cs).lineStart ((ofText cs).line pos') := by
  rw [line_ofText cs hpos, line_ofText cs hpos'] at h
  rw [line_ofText cs hpos']
  obtain ⟨i, hi⟩ := Nat.exists_eq_add_of_lt (Nat.lt_of_le_of_lt (Nat.zero_le _)
    (Nat.lt_of_add_lt_add_right h))
  have hlength : i < (startsOf cs).length := by
    have hle := List.length_filter_le (· ≤ min (pos' - 1) (octets cs)) (startsOf cs)
    unfold started at hi
    omega
  have hlt : min (pos - 1) (octets cs) < (startsOf cs)[i] := by
    by_contra hge
    have hstarted := (lt_length_started_iff cs _ hlength).2 (Nat.le_of_not_lt hge)
    omega
  have hbound : (startsOf cs)[i] < octets cs := by
    simpa using (List.mem_filter.1 (List.getElem_mem hlength)).2
  have hget : (0 :: startsOf cs).getD ((started cs (min (pos' - 1) (octets cs))).length + 1 - 1) 0 =
      (startsOf cs)[i] := by
    rw [hi, Nat.add_sub_cancel, Nat.zero_add, List.getD_cons_succ,
      List.getD_eq_getElem?_getD, List.getElem?_eq_getElem hlength, Option.getD_some]
  unfold lineStart ofText ofStarts
  dsimp only
  unfold startsOf at hget hlt hbound
  rw [hget]
  omega

end LineTable

end NodeFamily.Layout
