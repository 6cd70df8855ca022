import NodeFamily.Proofs.Layout.Sheet

/-!
# Ink as text

What becomes of ink when its cells are put in columns and the blanks at the ends of lines are
dropped. `Settles` says what text it becomes: lines without cells stay as they are
(`settles_lines`), and in rows of two cells the second ones begin in one column (`settles_rows`).
-/

namespace NodeFamily.Layout

/-! ## Cells -/

/-- Whether a character ends a cell or a line. -/
def separates (c : Char) : Bool := c == '\t' || c == '\x0b' || Page.isBreak c

/-- Strokes that stay in one cell. -/
def IsSolid (x : List Ink) : Prop :=
  ∀ cells strokes rest, cellLines cells strokes false (x ++ rest) =
    cellLines cells (x.reverse ++ strokes) false rest

/-- Text without separators stays in one cell. -/
theorem isSolid_inkOf {s : String} (h : ∀ c ∈ s.toList, separates c = false) :
    IsSolid (inkOf s) := by
  unfold inkOf
  generalize s.toList = cs at h
  intro cells strokes rest
  induction cs generalizing strokes with
  | nil => rfl
  | cons c cs ih =>
    rw [List.forall_mem_cons] at h
    obtain ⟨⟨ht, hv⟩, hn, hf⟩ : (c ≠ '\t' ∧ c ≠ '\x0b') ∧ c ≠ '\n' ∧ c ≠ '\x0c' := by
      simpa [separates, Page.isBreak, and_assoc] using h.1
    rw [List.map_cons, List.cons_append, cellLines]
    simp only [ht, hv, hn, hf, Bool.false_eq_true, if_false, beq_iff_eq, or_self, Bool.or_eq_true]
    rw [ih h.2]
    simp

/-- Text in fences stays in one cell. -/
theorem isSolid_fencedInk (s : String) : IsSolid (fencedInk s) := by
  have hfenced : ∀ (cs : List Char) cells strokes rest,
      cellLines cells strokes true (cs.map Ink.char ++ rest) =
        cellLines cells ((cs.map Ink.char).reverse ++ strokes) true rest := by
    intro cs
    induction cs with
    | nil => exact fun _ _ _ => rfl
    | cons c cs ih =>
      intro cells strokes rest
      rw [List.map_cons, List.cons_append, cellLines, if_pos rfl, ih]
      simp
  intro cells strokes rest
  rw [fencedInk, inkOf, List.cons_append, List.cons_append, cellLines, Bool.not_false,
    List.append_assoc, hfenced, List.singleton_append, cellLines, Bool.not_true]
  simp

/-- A cell ends at a tab. -/
theorem IsSolid.cellLines_cell {x : List Ink} (h : IsSolid x) {c : Char} (hc : c = '\t' ∨ c = '\x0b')
    (cells : List Cell) (rest : List Ink) :
    cellLines cells [] false (x ++ .char c :: rest) =
      cellLines (⟨x, c == '\t'⟩ :: cells) [] false rest := by
  rw [h, cellLines]
  rcases hc with rfl | rfl <;> simp

/-- A line ends at a break. -/
theorem IsSolid.cellLines_break {x : List Ink} (h : IsSolid x) {c : Char}
    (hc : Page.isBreak c = true) (cells : List Cell) (rest : List Ink) :
    cellLines cells [] false (x ++ .char c :: rest) =
      ⟨(⟨x, false⟩ :: cells).reverse, c == '\x0c', true⟩ :: cellLines [] [] false rest := by
  have hbreak : c = '\n' ∨ c = '\x0c' := by simpa [Page.isBreak] using hc
  rw [h, cellLines]
  rcases hbreak with rfl | rfl <;> simp

/-! ## Sections -/

/-- Whether a section ends with a line. -/
def CellLine.isLast (line : CellLine) : Bool := line.endsSection || line.cells.length == 1

/-- A line that a section ends with is a section when it comes first. -/
theorem sections_cons_of_isLast {line : CellLine} (h : line.isLast = true)
    (rest : List CellLine) : sections (line :: rest) = [line] :: sections rest := by
  rw [sections]
  exact if_pos h

/-- Any other line belongs to the section after it. -/
theorem sections_cons_of_not_isLast {line : CellLine} (h : line.isLast = false)
    {rest s : List CellLine} {more : List (List CellLine)} (hrest : sections rest = s :: more) :
    sections (line :: rest) = (line :: s) :: more := by
  rw [sections, hrest]
  exact if_neg (Bool.eq_false_iff.1 h)

/-- Lines make a section. -/
theorem sections_ne_nil {lines : List CellLine} (h : lines ≠ []) : sections lines ≠ [] := by
  obtain ⟨line, rest, rfl⟩ := List.exists_cons_of_ne_nil h
  rw [sections]
  split
  · exact List.cons_ne_nil _ _
  · split <;> exact List.cons_ne_nil _ _

/-- The sections of lines of which the first ones end with a section. -/
theorem sections_append {a : List CellLine} (ha : ∀ line ∈ a.getLast?, line.isLast = true)
    (b : List CellLine) : sections (a ++ b) = sections a ++ sections b := by
  induction a with
  | nil => rfl
  | cons line a ih =>
    cases a with
    | nil =>
      rw [List.singleton_append, sections_cons_of_isLast (ha line rfl),
        sections_cons_of_isLast (ha line rfl)]
      rfl
    | cons next a =>
      rw [List.getLast?_cons_cons] at ha
      by_cases hline : line.isLast = true
      · rw [List.cons_append, sections_cons_of_isLast hline, sections_cons_of_isLast hline, ih ha]
        rfl
      · rw [Bool.not_eq_true] at hline
        obtain ⟨s, more, hs⟩ :=
          List.exists_cons_of_ne_nil (sections_ne_nil (List.cons_ne_nil next a))
        have hall : sections ((next :: a) ++ b) = s :: (more ++ sections b) := by
          rw [ih ha, hs]
          rfl
        rw [List.cons_append, sections_cons_of_not_isLast hline hall,
          sections_cons_of_not_isLast hline hs]
        rfl

/-- Lines of which the last one alone ends a section are one. -/
theorem sections_single {lines : List CellLine} {last : CellLine}
    (h : ∀ line ∈ lines, line.isLast = false) (hlast : last.isLast = true) :
    sections (lines ++ [last]) = [lines ++ [last]] := by
  induction lines with
  | nil => exact sections_cons_of_isLast hlast []
  | cons line lines ih =>
    rw [List.forall_mem_cons] at h
    exact sections_cons_of_not_isLast h.1 (ih h.2)

/-- The lines of sections are those that were cut into them. -/
theorem flatten_sections (lines : List CellLine) : (sections lines).flatten = lines := by
  induction lines with
  | nil => rfl
  | cons line rest ih =>
    by_cases hline : line.isLast = true
    · rw [sections_cons_of_isLast hline, List.flatten_cons, ih]
      rfl
    · rw [Bool.not_eq_true] at hline
      cases rest with
      | nil =>
        rw [sections]
        split <;> rfl
      | cons next rest =>
        obtain ⟨s, more, hs⟩ :=
          List.exists_cons_of_ne_nil (sections_ne_nil (List.cons_ne_nil next rest))
        rw [hs, List.flatten_cons] at ih
        rw [sections_cons_of_not_isLast hline hs, List.flatten_cons, List.cons_append, ih]

/-! ## Columns -/

/-- Lines that reach a column, or do not, are one block. -/
theorem columnBlocks_uniform {column : Nat} {r : Bool} {lines : List CellLine} (hne : lines ≠ [])
    (h : ∀ line ∈ lines, line.reaches column = r) : columnBlocks column lines = [(r, lines)] := by
  induction lines with
  | nil => exact absurd rfl hne
  | cons line rest ih =>
    rw [List.forall_mem_cons] at h
    rw [columnBlocks, h.1]
    cases rest with
    | nil => rfl
    | cons next rest =>
      rw [ih (List.cons_ne_nil next rest) h.2]
      simp

/-- Lines that share a column or the lack of it are written block by block. -/
theorem flatMap_columnBlocks {column : Nat} {lines : List CellLine}
    {f : Bool × List CellLine → List Ink} {g : CellLine → List Ink}
    (h : ∀ r block, block ≠ [] → (∀ line ∈ block, line ∈ lines ∧ line.reaches column = r) →
      f (r, block) = block.flatMap g) : (columnBlocks column lines).flatMap f = lines.flatMap g := by
  have hblocks : ∀ lines, (∀ b ∈ columnBlocks column lines, b.2 ≠ [] ∧
      ∀ line ∈ b.2, line ∈ lines ∧ line.reaches column = b.1) ∧
        (columnBlocks column lines).flatMap Prod.snd = lines := by
    intro lines
    induction lines with
    | nil => exact ⟨by simp [columnBlocks], rfl⟩
    | cons line rest ih =>
      obtain ⟨hmem, hflat⟩ := ih
      rw [columnBlocks]
      split
      · next r' block more heq =>
        rw [heq, List.forall_mem_cons] at hmem
        rw [heq, List.flatMap_cons] at hflat
        have hmore : ∀ b ∈ more, b.2 ≠ [] ∧
            ∀ l ∈ b.2, l ∈ line :: rest ∧ l.reaches column = b.1 := fun b hb =>
          ⟨(hmem.2 b hb).1, fun l hl =>
            ⟨List.mem_cons_of_mem _ ((hmem.2 b hb).2 l hl).1, ((hmem.2 b hb).2 l hl).2⟩⟩
        have hblock : ∀ l ∈ block, l ∈ line :: rest ∧ l.reaches column = r' := fun l hl =>
          ⟨List.mem_cons_of_mem _ (hmem.1.2 l hl).1, (hmem.1.2 l hl).2⟩
        split
        · next hr =>
          obtain rfl : line.reaches column = r' := by simpa using hr
          refine ⟨List.forall_mem_cons.2 ⟨⟨List.cons_ne_nil _ _, ?_⟩, hmore⟩, ?_⟩
          · exact List.forall_mem_cons.2 ⟨⟨List.mem_cons_self, rfl⟩, hblock⟩
          · rw [List.flatMap_cons, List.cons_append, hflat]
        · refine ⟨List.forall_mem_cons.2 ⟨⟨List.cons_ne_nil _ _, ?_⟩,
            List.forall_mem_cons.2 ⟨⟨hmem.1.1, hblock⟩, hmore⟩⟩, ?_⟩
          · exact List.forall_mem_singleton.2 ⟨List.mem_cons_self, rfl⟩
          · rw [List.flatMap_cons, List.flatMap_cons, hflat]
            rfl
      · next heq =>
        rw [heq] at hflat
        subst hflat
        exact ⟨by simp, rfl⟩
  obtain ⟨hmem, hflat⟩ := hblocks lines
  have hf : (columnBlocks column lines).flatMap f =
      (columnBlocks column lines).flatMap fun b => b.2.flatMap g :=
    List.flatMap_congr fun b hb => h b.1 b.2 (hmem b hb).1 (hmem b hb).2
  rw [hf, ← List.flatMap_assoc, hflat]

/-- Lines that end before a column are written with the columns before it. -/
theorem writeColumns_of_not_reaches {widths : List Nat} {lines : List CellLine}
    (h : ∀ line ∈ lines, line.reaches widths.length = false) (fuel : Nat) :
    writeColumns fuel widths lines = lines.flatMap (writeCellLine widths) := by
  cases fuel with
  | zero => rfl
  | succ fuel =>
    cases lines with
    | nil => rfl
    | cons line rest =>
      rw [writeColumns, columnBlocks_uniform (List.cons_ne_nil line rest) h]
      simp

/-- Lines that all reach a column share its width. -/
theorem writeColumns_of_reaches {widths : List Nat} {lines : List CellLine} (hne : lines ≠ [])
    (h : ∀ line ∈ lines, line.reaches widths.length = true) (fuel : Nat) :
    writeColumns (fuel + 1) widths lines =
      writeColumns fuel (widths ++ [columnWidth widths.length lines]) lines := by
  rw [writeColumns, columnBlocks_uniform hne h]
  simp

/-! ## Text -/

/-- Ink at the start of a line becomes text, whatever comes before and after it. -/
def Trims (ink : List Ink) (text : List Char) : Prop :=
  ∀ done rest, trimFrom false [] done (ink ++ rest) = trimFrom false [] (text.reverse ++ done) rest

/-- Ink becomes text when its columns are set and its lines are trimmed, whatever comes after it. -/
def Settles (ink : List Ink) (text : List Char) : Prop :=
  ∀ rest, ∃ set, setColumns (ink ++ rest) = set ++ setColumns rest ∧ Trims set text

/-- Nothing becomes nothing. -/
theorem Trims.nil : Trims [] [] := fun _ _ => rfl

/-- Two pieces of ink become their texts. -/
theorem Trims.append {a b : List Ink} {s t : List Char} (ha : Trims a s) (hb : Trims b t) :
    Trims (a ++ b) (s ++ t) := by
  intro done rest
  rw [List.append_assoc, ha, hb, List.reverse_append, List.append_assoc]

/-- Pieces of ink become their texts. -/
theorem Trims.flatMap {ι : Type} {xs : List ι} {ink : ι → List Ink} {text : ι → List Char}
    (h : ∀ x ∈ xs, Trims (ink x) (text x)) : Trims (xs.flatMap ink) (xs.flatMap text) := by
  induction xs with
  | nil => exact .nil
  | cons x xs ih =>
    rw [List.forall_mem_cons] at h
    exact h.1.append (ih h.2)

namespace Settles

/-- Two pieces of ink become their texts. -/
theorem append {a b : List Ink} {s t : List Char} (ha : Settles a s) (hb : Settles b t) :
    Settles (a ++ b) (s ++ t) := by
  intro rest
  obtain ⟨x, hx, hxs⟩ := ha (b ++ rest)
  obtain ⟨y, hy, hyt⟩ := hb rest
  exact ⟨x ++ y, by rw [List.append_assoc, hx, hy, List.append_assoc], hxs.append hyt⟩

/-- The text that ink becomes. -/
theorem trimInk_setColumns {ink : List Ink} {text : List Char} (h : Settles ink text) :
    trimInk (setColumns ink) = text := by
  obtain ⟨set, hset, htrims⟩ := h []
  have hnil : setColumns [] = [] := rfl
  rw [List.append_nil, hnil, List.append_nil] at hset
  have htext := htrims [] []
  rw [List.append_nil, List.append_nil] at htext
  rw [hset, trimInk, htext, trimFrom, List.reverse_reverse]

end Settles

/-- A line of ink: a text, in fences or not, perhaps after an indentation. -/
structure InkLine where
  indented : Bool
  fenced : Bool
  text : String
  endsSection : Bool

/-- A text has no separators and does not end in a blank. -/
structure IsRow (text : String) : Prop where
  unseparated : ∀ c ∈ text.toList, separates c = false
  trimmed : text.toList.getLast? ≠ some ' '

namespace InkLine

/-- The strokes of the text. -/
def strokes (l : InkLine) : List Ink := if l.fenced then fencedInk l.text else inkOf l.text

/-- The ink of a line. -/
def ink (l : InkLine) : List Ink :=
  (if l.indented then [.char '\t'] else []) ++ l.strokes ++
    [.char (if l.endsSection then '\x0c' else '\n')]

/-- The cells of a line. -/
def cellLine (l : InkLine) : CellLine :=
  ⟨(if l.indented then [⟨[], true⟩] else []) ++ [⟨l.strokes, false⟩], l.endsSection, true⟩

/-- The ink of a line when the columns are set. -/
def set (l : InkLine) : List Ink :=
  (if l.indented then [.char '\t'] else []) ++ l.strokes ++ [.char '\n']

/-- The characters of a line. -/
def chars (l : InkLine) : List Char :=
  (if l.indented then ['\t'] else []) ++ l.text.toList ++ ['\n']

/-- A line keeps its text: it has no separators unless it is in fences, and is not empty when it is
indented. -/
structure IsSound (l : InkLine) : Prop where
  row : l.fenced = false → IsRow l.text
  shown : l.indented = true → l.text ≠ ""

end InkLine

/-- The end of a line of text is found with the blanks before it, which are written unless nothing
follows them. -/
theorem trimFrom_text {cs : List Char} (h : ∀ c ∈ cs, separates c = false)
    (hlast : cs.getLast? ≠ some ' ') {blanks : List Char} (hblanks : cs ≠ [] ∨ blanks = [])
    (done : List Char) (rest : List Ink) :
    trimFrom false blanks done (cs.map Ink.char ++ .char '\n' :: rest) =
      trimFrom false [] ('\n' :: (cs.reverse ++ (blanks ++ done))) rest := by
  induction cs generalizing blanks done with
  | nil =>
    obtain rfl : blanks = [] := hblanks.resolve_left (fun h => h rfl)
    rw [List.map_nil, List.nil_append, trimFrom]
    simp
  | cons c cs ih =>
    rw [List.forall_mem_cons] at h
    obtain ⟨⟨ht, hv⟩, hn, hf⟩ : (c ≠ '\t' ∧ c ≠ '\x0b') ∧ c ≠ '\n' ∧ c ≠ '\x0c' := by
      simpa [separates, Page.isBreak, and_assoc] using h.1
    have hrest : cs.getLast? ≠ some ' ' := by
      cases cs with
      | nil => simp
      | cons d cs => rwa [List.getLast?_cons_cons] at hlast
    rw [List.map_cons, List.cons_append, trimFrom]
    by_cases hc : c = ' '
    · -- A blank waits for what follows it, which there is.
      subst hc
      have hne : cs ≠ [] := by
        rintro rfl
        exact hlast rfl
      simp only [Bool.false_eq_true, if_false, if_true, beq_self_eq_true, Bool.true_or,
        show (' ' == '\x0b') = false from rfl]
      rw [ih h.2 hrest (.inl hne)]
      simp
    · simp only [ht, hv, hn, hf, hc, Bool.false_eq_true, if_false, beq_iff_eq, or_self,
        Bool.or_eq_true]
      rw [ih h.2 hrest (.inr rfl)]
      simp

/-- Text in fences is written as it is, with the blanks before it. -/
theorem trimFrom_fenced (s : String) (blanks done : List Char) (rest : List Ink) :
    trimFrom false blanks done (fencedInk s ++ rest) =
      trimFrom false [] (s.toList.reverse ++ (blanks ++ done)) rest := by
  have hfenced : ∀ (cs done : List Char) rest, trimFrom true [] done (cs.map Ink.char ++ rest) =
      trimFrom true [] (cs.reverse ++ done) rest := by
    intro cs
    induction cs with
    | nil => exact fun _ _ => rfl
    | cons c cs ih =>
      intro done rest
      rw [List.map_cons, List.cons_append, trimFrom, if_pos rfl, ih]
      simp
  rw [fencedInk, inkOf, List.cons_append, List.cons_append, trimFrom, Bool.not_false,
    List.append_assoc, hfenced, List.singleton_append, trimFrom, Bool.not_true]
  simp

/-- A line becomes its text. -/
theorem InkLine.IsSound.trims_set {l : InkLine} (h : l.IsSound) : Trims l.set l.chars := by
  intro done rest
  have hline : ∀ blanks, l.indented = true ∨ blanks = [] →
      trimFrom false blanks done (l.strokes ++ .char '\n' :: rest) =
        trimFrom false [] ('\n' :: (l.text.toList.reverse ++ (blanks ++ done))) rest := by
    intro blanks hblanks
    unfold strokes
    by_cases hfenced : l.fenced = true
    · rw [if_pos hfenced, trimFrom_fenced, trimFrom]
      simp
    · have hrow := h.row (Bool.eq_false_iff.2 hfenced)
      rw [if_neg hfenced]
      refine trimFrom_text hrow.unseparated hrow.trimmed (hblanks.imp_left fun hi => ?_) done rest
      simpa using h.shown hi
  unfold set chars
  by_cases hindented : l.indented = true
  · have htab := hline ['\t'] (.inl hindented)
    rw [if_pos hindented, if_pos hindented, List.append_assoc, List.append_assoc]
    change trimFrom false ['\t'] done (l.strokes ++ ([.char '\n'] ++ rest)) = _
    simpa using htab
  · have htext := hline [] (.inr rfl)
    rw [if_neg hindented, if_neg hindented]
    simpa using htext

/-! ## Lines without cells -/

/-- The cells of a line without padding. -/
def CellLine.unpadded (line : CellLine) : List Ink :=
  (line.cells.flatMap fun c => c.strokes ++ if c.hard then [.char '\t'] else []) ++
    if line.ended then [.char '\n'] else []

/-- The indentation is the only cell of a line that ends. -/
theorem InkLine.unpadded_cellLine (l : InkLine) : l.cellLine.unpadded = l.set := by
  unfold CellLine.unpadded cellLine set
  by_cases h : l.indented = true <;> simp [h]

/-- The cells of an indented line are those of its indentation and its text. -/
theorem InkLine.cells_cellLine {l : InkLine} (h : l.indented = true) :
    l.cellLine.cells = [⟨[], true⟩, ⟨l.strokes, false⟩] := by simp [cellLine, h]

/-- Indentations are as wide as a tab. -/
theorem columnWidth_zero {lines : List CellLine} (hne : lines ≠ [])
    (h : ∀ line ∈ lines, line.cells[0]? = some ⟨[], true⟩) : columnWidth 0 lines = 1 := by
  have hcells : lines.filterMap (fun line => line.cells[0]?) =
      List.replicate lines.length ⟨[], true⟩ := by
    clear hne
    induction lines with
    | nil => rfl
    | cons line rest ih =>
      rw [List.forall_mem_cons] at h
      rw [List.filterMap_cons, h.1, List.length_cons, List.replicate_succ, ih h.2]
  have hmax : ∀ n, (List.replicate n (⟨[], true⟩ : Cell)).foldl
      (fun n c => max n (c.width + 1)) 1 = 1 := by
    intro n
    induction n with
    | zero => rfl
    | succ n ih => rw [List.replicate_succ, List.foldl_cons]; exact ih
  obtain ⟨n, hn⟩ := Nat.exists_eq_succ_of_ne_zero (mt List.length_eq_zero_iff.1 hne)
  unfold columnWidth
  rw [hcells, hn, List.replicate_succ]
  exact hmax n

/-- Lines without cells are written as they are. -/
theorem writeColumns_cellLines {lines : List CellLine}
    (h : ∀ line ∈ lines, ∃ l : InkLine, line = l.cellLine) (fuel : Nat) :
    writeColumns (fuel + 1) [] lines = lines.flatMap CellLine.unpadded := by
  rw [writeColumns]
  -- Indented lines make blocks with one column, and the other lines have no cell that ends.
  refine flatMap_columnBlocks fun r block hne hblock => ?_
  have hreaches : ∀ line ∈ block, ∃ l : InkLine, line = l.cellLine ∧ l.indented = r := by
    intro line hline
    obtain ⟨hmem, hr⟩ := hblock line hline
    obtain ⟨l, rfl⟩ := h line hmem
    refine ⟨l, rfl, ?_⟩
    rw [← hr]
    by_cases hi : l.indented = true <;> simp [hi, InkLine.cellLine, CellLine.reaches]
  cases r with
  | true =>
    have hwidth : columnWidth 0 block = 1 := columnWidth_zero hne fun line hline => by
      obtain ⟨l, rfl, hi⟩ := hreaches line hline
      rw [InkLine.cells_cellLine hi]
      rfl
    have hshort : ∀ line ∈ block, line.reaches [1].length = false := fun line hline => by
      obtain ⟨l, rfl, hi⟩ := hreaches line hline
      simp [CellLine.reaches, InkLine.cells_cellLine hi]
    dsimp only
    rw [if_pos rfl, List.length_nil, List.nil_append, hwidth, writeColumns_of_not_reaches hshort]
    refine List.flatMap_congr fun line hline => ?_
    obtain ⟨l, rfl, hi⟩ := hreaches line hline
    rw [writeCellLine, CellLine.unpadded, InkLine.cells_cellLine hi]
    simp [writeCells, padding, Cell.width, Cell.isEmpty, tabWidth, InkLine.cellLine]
  | false =>
    dsimp only
    rw [if_neg Bool.false_ne_true]
    refine List.flatMap_congr fun line hline => ?_
    obtain ⟨l, rfl, hi⟩ := hreaches line hline
    simp [writeCellLine, CellLine.unpadded, writeCells, InkLine.cellLine, hi]

/-- A section as it is written. -/
def writeSection (lines : List CellLine) : List Ink :=
  writeColumns (lines.foldl (fun n line => max n line.cells.length) 0) [] lines

/-- A section of lines without cells is written as it is. -/
theorem writeSection_cellLines {lines : List CellLine}
    (h : ∀ line ∈ lines, ∃ l : InkLine, line = l.cellLine) :
    writeSection lines = lines.flatMap CellLine.unpadded := by
  cases lines with
  | nil => rfl
  | cons line rest =>
    have hmono : ∀ (ls : List CellLine) n,
        n ≤ ls.foldl (fun n line => max n line.cells.length) n := by
      intro ls
      induction ls with
      | nil => exact fun n => Nat.le_refl n
      | cons l ls ih => exact fun n => Nat.le_trans (Nat.le_max_left _ _) (ih _)
    obtain ⟨l, hl⟩ := h line List.mem_cons_self
    have hpos : 0 < (line :: rest).foldl (fun n line => max n line.cells.length) 0 := by
      refine Nat.lt_of_lt_of_le ?_ (hmono rest _)
      simp [hl, InkLine.cellLine]
    obtain ⟨fuel, hfuel⟩ := Nat.exists_eq_succ_of_ne_zero (Nat.ne_of_gt hpos)
    rw [writeSection, hfuel]
    exact writeColumns_cellLines h fuel

/-- Lines that are cut out of ink and end a section are written section by section. -/
theorem setColumns_append {ink rest : List Ink} {lines : List CellLine}
    (h : cellLines [] [] false (ink ++ rest) = lines ++ cellLines [] [] false rest)
    (hlast : ∀ line ∈ lines.getLast?, line.isLast = true) :
    setColumns (ink ++ rest) = (sections lines).flatMap writeSection ++ setColumns rest := by
  rw [setColumns, h, sections_append hlast, List.flatMap_append]
  rfl

/-- A line is cut out of ink. -/
theorem InkLine.IsSound.cellLines_ink {l : InkLine} (h : l.IsSound) (rest : List Ink) :
    cellLines [] [] false (l.ink ++ rest) = l.cellLine :: cellLines [] [] false rest := by
  have hsolid : IsSolid l.strokes := by
    unfold strokes
    split
    · exact isSolid_fencedInk l.text
    · next hfenced => exact isSolid_inkOf (h.row (Bool.eq_false_iff.2 hfenced)).unseparated
  have hbreak : Page.isBreak (if l.endsSection then '\x0c' else '\n') = true := by
    split <;> rfl
  have hends : ((if l.endsSection then '\x0c' else '\n') == '\x0c') = l.endsSection := by
    cases l.endsSection <;> rfl
  unfold ink cellLine
  by_cases hindented : l.indented = true
  · have hcell := hsolid.cellLines_break hbreak [⟨[], true⟩] rest
    rw [hends] at hcell
    rw [if_pos hindented, if_pos hindented, List.append_assoc, List.append_assoc]
    exact hcell
  · have hcell := hsolid.cellLines_break hbreak [] rest
    rw [hends] at hcell
    rw [if_neg hindented, if_neg hindented, List.nil_append, List.append_assoc]
    exact hcell

/-- Lines become their texts, when a section ends with the last one. -/
theorem settles_lines {ls : List InkLine} (h : ∀ l ∈ ls, l.IsSound)
    (hlast : ∀ l ∈ ls.getLast?, l.endsSection = true ∨ l.indented = false) :
    Settles (ls.flatMap InkLine.ink) (ls.flatMap InkLine.chars) := by
  intro rest
  refine ⟨ls.flatMap InkLine.set, ?_, .flatMap fun l hl => (h l hl).trims_set⟩
  have hcut : cellLines [] [] false (ls.flatMap InkLine.ink ++ rest) =
      ls.map InkLine.cellLine ++ cellLines [] [] false rest := by
    clear hlast
    induction ls with
    | nil => rfl
    | cons l ls ih =>
      rw [List.forall_mem_cons] at h
      rw [List.flatMap_cons, List.append_assoc, h.1.cellLines_ink, ih h.2]
      rfl
  have hends : ∀ line ∈ (ls.map InkLine.cellLine).getLast?, line.isLast = true := by
    intro line hline
    rw [List.getLast?_map, Option.mem_def, Option.map_eq_some_iff] at hline
    obtain ⟨l, hl, rfl⟩ := hline
    rcases hlast l hl with hs | hi
    · simp [CellLine.isLast, InkLine.cellLine, hs]
    · simp [CellLine.isLast, InkLine.cellLine, hi]
  rw [setColumns_append hcut hends]
  congr 1
  have hsections : (sections (ls.map InkLine.cellLine)).flatMap writeSection =
      (sections (ls.map InkLine.cellLine)).flatMap (·.flatMap CellLine.unpadded) := by
    refine List.flatMap_congr fun s hs => writeSection_cellLines fun line hline => ?_
    have hmem := List.mem_flatten.2 ⟨s, hs, hline⟩
    rw [flatten_sections] at hmem
    obtain ⟨l, -, rfl⟩ := List.mem_map.1 hmem
    exact ⟨l, rfl⟩
  have hflatten : (sections (ls.map InkLine.cellLine)).flatMap (·.flatMap CellLine.unpadded) =
      ((sections (ls.map InkLine.cellLine)).flatMap id).flatMap CellLine.unpadded :=
    List.flatMap_assoc.symm
  rw [hsections, hflatten, List.flatMap_id, flatten_sections, List.flatMap_map]
  exact List.flatMap_congr fun l _ => l.unpadded_cellLine

/-! ## Rows of two cells -/

/-- The text of a row whose first cell is padded to a width. -/
def paddedRow (width : Nat) (p : String × String) : String :=
  p.1 ++ String.ofList (List.replicate (width + 1 - p.1.length) ' ') ++ p.2

/-- The greatest width of first cells. -/
def greatestWidth (ps : List (String × String)) : Nat := (ps.map fun p => p.1.length).foldl max 0

/-- The ink of a row of two cells. -/
def rowInk (p : String × String) (endsSection : Bool) : List Ink :=
  .char '\t' :: inkOf p.1 ++ .char '\x0b' :: inkOf p.2 ++
    [.char (if endsSection then '\x0c' else '\n')]

/-- The cells of a row. -/
def rowCells (p : String × String) (endsSection : Bool) : CellLine :=
  ⟨[⟨[], true⟩, ⟨inkOf p.1, false⟩, ⟨inkOf p.2, false⟩], endsSection, true⟩

/-- The cells of a row are not empty and have no separators. -/
structure IsPair (p : String × String) : Prop where
  first : ∀ c ∈ p.1.toList, separates c = false
  first_ne : p.1 ≠ ""
  second : IsRow p.2
  second_ne : p.2 ≠ ""

/-- A row is cut out of ink. -/
theorem IsPair.cellLines_rowInk {p : String × String} (h : IsPair p) (endsSection : Bool)
    (rest : List Ink) : cellLines [] [] false (rowInk p endsSection ++ rest) =
      rowCells p endsSection :: cellLines [] [] false rest := by
  have hbreak : Page.isBreak (if endsSection then '\x0c' else '\n') = true := by
    split <;> rfl
  have hends : ((if endsSection then '\x0c' else '\n') == '\x0c') = endsSection := by
    cases endsSection <;> rfl
  have hfirst := (isSolid_inkOf h.first).cellLines_cell (.inr rfl) [⟨[], true⟩]
    (inkOf p.2 ++ .char (if endsSection then '\x0c' else '\n') :: rest)
  have hsecond := (isSolid_inkOf h.second.unseparated).cellLines_break hbreak
    [⟨inkOf p.1, false⟩, ⟨[], true⟩] rest
  rw [hends] at hsecond
  have hcells : cellLines [⟨[], true⟩] [] false (inkOf p.1 ++ .char '\x0b' :: (inkOf p.2 ++
      .char (if endsSection then '\x0c' else '\n') :: rest)) =
        rowCells p endsSection :: cellLines [] [] false rest := hfirst.trans hsecond
  have hink : rowInk p endsSection ++ rest = .char '\t' :: (inkOf p.1 ++ .char '\x0b' ::
      (inkOf p.2 ++ .char (if endsSection then '\x0c' else '\n') :: rest)) := by
    simp [rowInk]
  rw [hink]
  exact hcells

/-- The width of a cell of text. -/
theorem width_inkOf (s : String) (hard : Bool) : Cell.width ⟨inkOf s, hard⟩ = s.length := by
  have hwidth : ∀ (cs : List Char) n, (cs.map Ink.char).foldl
      (fun n s => if s == Ink.fence then n else n + 1) n = n + cs.length := by
    intro cs
    induction cs with
    | nil => exact fun _ => rfl
    | cons c cs ih =>
      intro n
      rw [List.map_cons, List.foldl_cons, ih, List.length_cons]
      simp
      omega
  rw [Cell.width, inkOf, hwidth, Nat.zero_add, String.length_toList]

/-- The first cells of rows are as wide as the greatest of them and a blank. -/
theorem columnWidth_one {lines : List CellLine} {ps : List (String × String)}
    (h : List.Forall₂ (fun line p => ∃ e, line = rowCells p e) lines ps)
    (hfirst : ∀ p ∈ ps, p.1 ≠ "") (hne : ps ≠ []) :
    columnWidth 1 lines = greatestWidth ps + 1 := by
  have hcells : lines.filterMap (fun line => line.cells[1]?) =
      ps.map fun p => ⟨inkOf p.1, false⟩ := by
    clear hfirst hne
    induction h with
    | nil => rfl
    | cons hline _ ih =>
      obtain ⟨e, rfl⟩ := hline
      rw [List.filterMap_cons, ih]
      rfl
  have hmax : ∀ (ps : List (String × String)) n, (ps.map fun p => (⟨inkOf p.1, false⟩ : Cell)).foldl
      (fun n c => max n (c.width + 1)) (n + 1) = (ps.map fun p => p.1.length).foldl max n + 1 := by
    intro ps
    induction ps with
    | nil => exact fun _ => rfl
    | cons p ps ih =>
      intro n
      rw [List.map_cons, List.foldl_cons, List.map_cons, List.foldl_cons, ← ih, width_inkOf,
        Nat.succ_max_succ]
  obtain ⟨p, rest, rfl⟩ := List.exists_cons_of_ne_nil hne
  have hp : p.1.length ≠ 0 := by
    rw [← String.length_toList]
    simpa using hfirst p List.mem_cons_self
  unfold columnWidth greatestWidth
  rw [hcells]
  dsimp only
  rw [if_neg (by simp [width_inkOf, hp])]
  have hrest := hmax rest p.1.length
  simpa [width_inkOf] using hrest

/-- A row with its first cell padded. -/
def paddedLine (width : Nat) (p : String × String) : InkLine :=
  ⟨true, false, paddedRow width p, false⟩

/-- A padded row keeps its text. -/
theorem IsPair.isSound_paddedLine {p : String × String} (h : IsPair p) (width : Nat) :
    (paddedLine width p).IsSound := by
  have hne : p.2.toList ≠ [] := by simpa using h.second_ne
  refine ⟨fun _ => ⟨?_, ?_⟩, fun _ => ?_⟩
  · have hblank : ∀ c ∈ List.replicate (width + 1 - p.1.length) ' ', separates c = false := by
      intro c hc
      obtain rfl := List.eq_of_mem_replicate hc
      rfl
    intro c hc
    simp only [paddedLine, paddedRow, String.toList_append, String.toList_ofList,
      List.mem_append] at hc
    rcases hc with (hc | hc) | hc
    · exact h.first c hc
    · exact hblank c hc
    · exact h.second.unseparated c hc
  · simp only [paddedLine, paddedRow, String.toList_append]
    rw [List.getLast?_append_of_ne_nil _ hne]
    exact h.second.trimmed
  · simpa [paddedLine, paddedRow] using fun h₁ => absurd h₁ h.first_ne

/-- A row is written with its first cell padded to the width of the column. -/
theorem writeCellLine_rowCells (width : Nat) {p : String × String} (hp : p.1 ≠ "")
    (endsSection : Bool) :
    writeCellLine [1, width + 1] (rowCells p endsSection) = (paddedLine width p).set := by
  have hempty : inkOf p.1 ≠ [] := by simpa [inkOf] using hp
  have htab : Cell.width ⟨[], true⟩ = 0 := rfl
  have hblanks : ∀ n, inkOf (String.ofList (List.replicate n ' ')) =
      List.replicate n (.char ' ') := by simp [inkOf]
  simp [writeCellLine, rowCells, writeCells, padding, width_inkOf, htab, Cell.isEmpty, hempty,
    tabWidth, paddedLine, InkLine.set, InkLine.strokes, paddedRow, hblanks]

/-- A row has three cells: its indentation, and two of text. -/
theorem greatestLength_rows {lines : List CellLine} (hne : lines ≠ [])
    (h : ∀ line ∈ lines, ∃ p e, line = rowCells p e) :
    lines.foldl (fun n line => max n line.cells.length) 0 = 3 := by
  have hall : ∀ ls : List CellLine, (∀ line ∈ ls, ∃ p e, line = rowCells p e) →
      ls.foldl (fun n line => max n line.cells.length) 3 = 3 := by
    intro ls
    induction ls with
    | nil => exact fun _ => rfl
    | cons line ls ih =>
      intro hls
      rw [List.forall_mem_cons] at hls
      obtain ⟨⟨p, e, rfl⟩, hls⟩ := hls
      exact ih hls
  obtain ⟨line, rest, rfl⟩ := List.exists_cons_of_ne_nil hne
  rw [List.forall_mem_cons] at h
  obtain ⟨⟨p, e, rfl⟩, hrest⟩ := h
  exact hall rest hrest

/-- Rows of two cells are written with the second ones in one column. -/
theorem writeSection_rows {lines : List CellLine} {ps : List (String × String)}
    (h : List.Forall₂ (fun line p => ∃ e, line = rowCells p e) lines ps)
    (hfirst : ∀ p ∈ ps, p.1 ≠ "") (hne : ps ≠ []) :
    writeSection lines = ps.flatMap fun p => (paddedLine (greatestWidth ps) p).set := by
  have hrow : ∀ line ∈ lines, ∃ p e, line = rowCells p e := by
    clear hfirst hne
    induction h with
    | nil => simp
    | cons hline _ ih => exact List.forall_mem_cons.2 ⟨⟨_, hline⟩, ih⟩
  have hlines : lines ≠ [] := by
    rintro rfl
    cases h
    exact hne rfl
  have hzero : columnWidth 0 lines = 1 := columnWidth_zero hlines fun line hline => by
    obtain ⟨p, e, rfl⟩ := hrow line hline
    rfl
  have hreaches : ∀ n, ∀ line ∈ lines, line.reaches n = decide (n + 1 < 3) := by
    intro n line hline
    obtain ⟨p, e, rfl⟩ := hrow line hline
    rfl
  -- The indentations are the first column, and the first cells of text are the second one.
  have hindented : writeColumns 3 [] lines = writeColumns 2 [columnWidth 0 lines] lines :=
    @writeColumns_of_reaches [] lines hlines (hreaches 0) 2
  have haligned : writeColumns 2 [1] lines = writeColumns 1 [1, columnWidth 1 lines] lines :=
    @writeColumns_of_reaches [1] lines hlines (hreaches 1) 1
  rw [writeSection, greatestLength_rows hlines hrow, hindented, hzero, haligned, columnWidth_one h hfirst hne,
    writeColumns_of_not_reaches (hreaches 2)]
  generalize greatestWidth ps = width
  clear hne hrow hlines hzero hreaches hindented haligned
  induction h with
  | nil => rfl
  | cons hline _ ih =>
    obtain ⟨e, rfl⟩ := hline
    rw [List.forall_mem_cons] at hfirst
    rw [List.flatMap_cons, List.flatMap_cons, writeCellLine_rowCells _ hfirst.1, ih hfirst.2]

/-- Rows of two cells that end a section become their texts, with the second cells in one column. -/
theorem settles_rows {ps : List (String × String)} {last : String × String}
    (h : ∀ p ∈ ps ++ [last], IsPair p) :
    Settles (ps.flatMap (rowInk · false) ++ rowInk last true)
      ((ps ++ [last]).flatMap fun p => (paddedLine (greatestWidth (ps ++ [last])) p).chars) := by
  intro rest
  refine ⟨(ps ++ [last]).flatMap fun p => (paddedLine (greatestWidth (ps ++ [last])) p).set, ?_,
    .flatMap fun p hp => ((h p hp).isSound_paddedLine _).trims_set⟩
  have hcut : ∀ rest, cellLines [] [] false (ps.flatMap (rowInk · false) ++ rest) =
      ps.map (rowCells · false) ++ cellLines [] [] false rest := by
    have hps : ∀ p ∈ ps, IsPair p := fun p hp => h p (List.mem_append_left _ hp)
    clear h
    intro rest
    induction ps with
    | nil => rfl
    | cons p ps ih =>
      rw [List.forall_mem_cons] at hps
      rw [List.flatMap_cons, List.append_assoc, hps.1.cellLines_rowInk, ih hps.2]
      rfl
  have hcutAll : cellLines [] [] false (ps.flatMap (rowInk · false) ++ rowInk last true ++ rest) =
      (ps.map (rowCells · false) ++ [rowCells last true]) ++ cellLines [] [] false rest := by
    rw [List.append_assoc, hcut, (h last (by simp)).cellLines_rowInk, List.append_assoc]
    rfl
  have hsections : sections (ps.map (rowCells · false) ++ [rowCells last true]) =
      [ps.map (rowCells · false) ++ [rowCells last true]] := sections_single
    (List.forall_mem_map.2 fun p _ => rfl) rfl
  have hrows : List.Forall₂ (fun line p => ∃ e, line = rowCells p e)
      (ps.map (rowCells · false) ++ [rowCells last true]) (ps ++ [last]) := by
    refine List.rel_append ?_ (.cons ⟨true, rfl⟩ .nil)
    rw [List.forall₂_map_left_iff, List.forall₂_same]
    exact fun p _ => ⟨false, rfl⟩
  rw [setColumns_append hcutAll (by simp [CellLine.isLast, rowCells]), hsections]
  congr 1
  rw [List.flatMap_singleton]
  exact writeSection_rows hrows (fun p hp => (h p hp).first_ne) (by simp)

end NodeFamily.Layout
