import NodeFamily.Layout.Format
import NodeFamily.Proofs.Layout.FileWriting
import NodeFamily.Proofs.Layout.InkLines

/-!
# The text of a file

A file is laid out as the comment at its front, the package clause, the imports, and the lines of its
declarations, in which only the types of several fields stand in a column (`Source.layOut_eq`). These
are what the ink of the file becomes when its columns are set (`trimInk_setColumns_fileInk`).
-/

namespace NodeFamily.Layout

/-! ## Texts -/

/-- A text has no separators. -/
def IsClean (s : String) : Prop := ∀ c ∈ s.toList, separates c = false

/-- Whether a text is clean can be decided. -/
instance (s : String) : Decidable (IsClean s) :=
  decidable_of_iff (s.toList.all fun c => !separates c) (by simp [IsClean])

/-- Two clean texts make one. -/
theorem IsClean.append {a b : String} (ha : IsClean a) (hb : IsClean b) : IsClean (a ++ b) := by
  rw [IsClean, String.toList_append]
  exact List.forall_mem_append.2 ⟨ha, hb⟩

/-- Clean texts with a clean one between each two make one. -/
theorem IsClean.intercalate {sep : String} (hsep : IsClean sep) {ss : List String}
    (h : ∀ s ∈ ss, IsClean s) : IsClean (sep.intercalate ss) := by
  cases ss with
  | nil => simp [IsClean]
  | cons s ss =>
    induction ss generalizing s with
    | nil => simpa using h
    | cons s' ss ih =>
      rw [List.forall_mem_cons] at h
      rw [String.intercalate_cons_cons]
      exact (h.1.append hsep).append (ih s' h.2)

/-- A word is not empty and has neither separators nor blanks. -/
structure IsPlainWord (s : String) : Prop where
  ne_empty : s ≠ ""
  clean : IsClean s
  unblank : ' ' ∉ s.toList

/-- Whether a text is a word can be decided. -/
instance (s : String) : Decidable (IsPlainWord s) :=
  decidable_of_iff (s ≠ "" ∧ IsClean s ∧ ' ' ∉ s.toList)
    ⟨fun ⟨h₁, h₂, h₃⟩ => ⟨h₁, h₂, h₃⟩, fun ⟨h₁, h₂, h₃⟩ => ⟨h₁, h₂, h₃⟩⟩

/-- A word is a row. -/
theorem IsPlainWord.isRow {s : String} (h : IsPlainWord s) : IsRow s :=
  ⟨h.clean, fun hlast => h.unblank (List.mem_of_getLast? hlast)⟩

/-- Two words make one. -/
theorem IsPlainWord.append {a b : String} (ha : IsPlainWord a) (hb : IsPlainWord b) : IsPlainWord (a ++ b) := by
  refine ⟨by simpa using fun h => absurd h ha.ne_empty, ha.clean.append hb.clean, ?_⟩
  rw [String.toList_append, List.mem_append]
  exact not_or.2 ⟨ha.unblank, hb.unblank⟩

/-- A word after a clean text makes a row. -/
theorem IsClean.append_word {a b : String} (ha : IsClean a) (hb : IsPlainWord b) : IsRow (a ++ b) := by
  refine ⟨ha.append hb.clean, ?_⟩
  rw [String.toList_append, List.getLast?_append_of_ne_nil _ (by simpa using hb.ne_empty)]
  exact hb.isRow.trimmed

/-! ## Words -/

/-- The names in a type without a star. -/
def NamedType.words : NamedType → List String
  | name n => [n]
  | member p n => [p, n]
  | applied n arg => [n, arg]

/-- The text of a type is a word. -/
theorem TypeShape.isPlainWord_text {s : TypeShape} (h : ∀ w ∈ s.base.words, IsPlainWord w) :
    IsPlainWord s.text := by
  obtain ⟨starred, base⟩ := s
  have hbase : IsPlainWord base.text := by
    cases base with
    | name n => exact h n (by simp [NamedType.words])
    | member p n =>
      obtain ⟨hp, hn⟩ : IsPlainWord p ∧ IsPlainWord n := by simpa [NamedType.words] using h
      exact (hp.append (by decide)).append hn
    | applied n arg =>
      obtain ⟨hn, harg⟩ : IsPlainWord n ∧ IsPlainWord arg := by simpa [NamedType.words] using h
      exact ((hn.append (by decide)).append harg).append (by decide)
  cases starred with
  | false => simpa [text] using hbase
  | true =>
    have hstar : IsPlainWord "*" := by decide
    exact hstar.append hbase

/-- The names in a name with its type. -/
def NamedField.words (p : NamedField) : List String := p.1 :: p.2.base.words

/-- The cells of a name with its type are words. -/
theorem NamedField.isPlainWord {p : NamedField} (h : ∀ w ∈ p.words, IsPlainWord w) :
    IsPlainWord p.1 ∧ IsPlainWord p.2.text := by
  rw [words, List.forall_mem_cons] at h
  exact ⟨h.1, TypeShape.isPlainWord_text h.2⟩

/-- Parameters have no separators. -/
theorem NamedField.isClean_listText {ps : List NamedField}
    (h : ∀ p ∈ ps, ∀ w ∈ p.words, IsPlainWord w) : IsClean (listText ps) := by
  refine IsClean.intercalate (by decide) (List.forall_mem_map.2 fun p hp => ?_)
  obtain ⟨hname, htype⟩ := NamedField.isPlainWord (h p hp)
  exact (hname.clean.append (by decide)).append htype.clean

/-- A signature after a clean text ends with a word. -/
theorem IsClean.append_signatureText {ps : List NamedField} {result : TypeShape} {s : String}
    (hs : IsClean s) (hps : ∀ p ∈ ps, ∀ w ∈ p.words, IsPlainWord w)
    (hresult : ∀ w ∈ result.base.words, IsPlainWord w) :
    IsRow (s ++ signatureText ps result) := by
  have hclean : IsClean (s ++ ("(" ++ (NamedField.listText ps ++ ")")) ++ " ") :=
    (hs.append (IsClean.append (by decide)
      ((NamedField.isClean_listText hps).append (by decide)))).append (by decide)
  have htext : s ++ signatureText ps result =
      s ++ ("(" ++ (NamedField.listText ps ++ ")")) ++ " " ++ result.text := by
    simp only [signatureText, String.append_assoc]
  rw [htext]
  exact hclean.append_word (TypeShape.isPlainWord_text hresult)

/-- The names in a method. -/
def MethodShape.words (m : MethodShape) : List String :=
  m.name :: (m.param.words ++ m.result.base.words)

/-- The names in what stands in the braces of a type. -/
def TypeBody.words : TypeBody → List String
  | struct fields => fields.flatMap NamedField.words
  | interface methods => methods.flatMap MethodShape.words

/-- The names in a value. -/
def ValueShape.words : ValueShape → List String
  | null n => [n]
  | visit m => [m]
  | literal n r ps => n :: r :: ps.flatMap fun p => [p.1, p.2]

/-- A value after a clean text ends with a word. -/
theorem IsClean.append_value {v : ValueShape} {s : String} (hs : IsClean s)
    (h : ∀ w ∈ v.words, IsPlainWord w) : IsRow (s ++ v.text) := by
  cases v with
  | null n =>
    obtain hn : IsPlainWord n := by simpa [ValueShape.words] using h
    have hhead : IsClean ("(*" ++ n) := IsClean.append (by decide) hn.clean
    rw [ValueShape.text, ← String.append_assoc]
    exact (hs.append hhead).append_word (by decide)
  | visit m =>
    obtain hm : IsPlainWord m := by simpa [ValueShape.words] using h
    have hhead : IsClean ("visitor." ++ m) := IsClean.append (by decide) hm.clean
    rw [ValueShape.text, ← String.append_assoc]
    exact (hs.append hhead).append_word (by decide)
  | literal n r ps =>
    simp only [ValueShape.words, List.forall_mem_cons, List.forall_mem_flatMap] at h
    obtain ⟨hn, hr, hps⟩ := h
    have hpairs : IsClean (", ".intercalate (ps.map ValueShape.pairText)) := by
      refine IsClean.intercalate (by decide) (List.forall_mem_map.2 fun p hp => ?_)
      obtain ⟨hkey, hvalue, -⟩ := hps p hp
      exact (hkey.clean.append (by decide)).append hvalue.clean
    have hhead : IsClean ("&" ++ n ++ "[" ++ r ++ "]\x7b") :=
      (((IsClean.append (by decide) hn.clean).append (by decide)).append hr.clean).append
        (by decide)
    rw [ValueShape.text, ← String.append_assoc]
    exact (hs.append (hhead.append hpairs)).append_word (by decide)

/-- The names in a head. -/
def FunctionHead.words : FunctionHead → List String
  | method receiver n => n :: receiver.words
  | generic n r => [n, r]

/-- The text of a type parameter in brackets is clean. -/
theorem isClean_typeParamText {r : String} (hr : IsPlainWord r) : IsClean (typeParamText r) := by
  have hany : IsClean (r ++ " any") := hr.clean.append (by decide)
  exact IsClean.append (by decide) (hany.append (by decide))

/-- The text between the keyword of a function and the brace of its body is clean. -/
theorem FunctionHead.isClean_text {head : FunctionHead} {ps : List NamedField} {result : TypeShape}
    (hhead : ∀ w ∈ head.words, IsPlainWord w) (hps : ∀ p ∈ ps, ∀ w ∈ p.words, IsPlainWord w)
    (hresult : ∀ w ∈ result.base.words, IsPlainWord w) : IsClean (head.text ps result) := by
  cases head with
  | method receiver n =>
    rw [words, List.forall_mem_cons] at hhead
    obtain ⟨hname, htype⟩ := NamedField.isPlainWord hhead.2
    have hreceiver : IsClean receiver.text := (hname.clean.append (by decide)).append htype.clean
    have hclean : IsClean ("(" ++ receiver.text ++ ") " ++ n) :=
      ((IsClean.append (by decide) hreceiver).append (by decide)).append hhead.1.clean
    exact (hclean.append_signatureText hps hresult).unseparated
  | generic n r =>
    obtain ⟨hn, hr⟩ : IsPlainWord n ∧ IsPlainWord r := by simpa [words] using hhead
    exact ((hn.clean.append (isClean_typeParamText hr)).append_signatureText hps
      hresult).unseparated

/-- The names in a declaration. -/
def DeclShape.words : DeclShape → List String
  | type n r body => n :: r :: body.words
  | var n s value => n :: (s.base.words ++ value.words)
  | function head ps result value =>
    head.words ++ ps.flatMap NamedField.words ++ result.base.words ++ value.words

/-! ## Lines -/

/-- The characters of lines. -/
def lineChars (ls : List String) : List Char := ls.flatMap fun s => s.toList ++ ['\n']

/-- The characters of the lines of two parts. -/
theorem lineChars_append (a b : List String) : lineChars (a ++ b) = lineChars a ++ lineChars b :=
  List.flatMap_append

/-- Ink of lines, the last of which has not ended, becomes their texts whatever ends it. -/
def SettlesOpen (ink : List Ink) (ls : List String) : Prop :=
  ∀ c, Page.isBreak c = true → Settles (ink ++ [.char c]) (lineChars ls)

/-- Ink that ends the line before it becomes the texts of the lines after that. -/
def SettlesAfter (ink : List Ink) (ls : List String) : Prop :=
  ∃ c rest, ink = .char c :: rest ∧ Page.isBreak c = true ∧ Settles rest (lineChars ls)

/-- Lines become their texts when the ink after them ends the last one. -/
theorem SettlesOpen.settles {ink rest : List Ink} {ls ls' : List String} (hink : SettlesOpen ink ls)
    (hrest : SettlesAfter rest ls') : Settles (ink ++ rest) (lineChars (ls ++ ls')) := by
  obtain ⟨c, rest, rfl, hc, hrest⟩ := hrest
  have hall := (hink c hc).append hrest
  rwa [List.append_assoc, List.singleton_append, ← lineChars_append] at hall

/-- Lines after a break become their texts when the ink after them ends the last one. -/
theorem SettlesOpen.settlesAfter {ink rest : List Ink} {ls ls' : List String}
    (hink : SettlesOpen ink ls) (hrest : SettlesAfter rest ls') {c : Char}
    (hc : Page.isBreak c = true) : SettlesAfter (.char c :: (ink ++ rest)) (ls ++ ls') :=
  ⟨c, ink ++ rest, rfl, hc, hink.settles hrest⟩

/-- After the last line there is a break. -/
theorem SettlesAfter.last : SettlesAfter [.char '\n'] [] :=
  ⟨'\n', [], rfl, rfl, fun _ => ⟨[], rfl, .nil⟩⟩

/-- A break is what ends a line of the section or the section. -/
theorem eq_of_isBreak {c : Char} (hc : Page.isBreak c = true) :
    (if c = '\x0c' then '\x0c' else '\n') = c := by
  have hbreak : c = '\n' ∨ c = '\x0c' := by simpa [Page.isBreak] using hc
  rcases hbreak with rfl | rfl <;> rfl

/-- A line that is not indented becomes its text. -/
theorem settlesOpen_line {s : String} (fenced : Bool) (h : fenced = false → IsRow s) :
    SettlesOpen (if fenced then fencedInk s else inkOf s) [s] := by
  intro c hc
  have hsound : ∀ l ∈ [(⟨false, fenced, s, c == '\x0c'⟩ : InkLine)], l.IsSound :=
    List.forall_mem_singleton.2 ⟨h, nofun⟩
  have hsettles := settles_lines hsound (by simp)
  simpa [InkLine.ink, InkLine.chars, InkLine.strokes, lineChars, eq_of_isBreak hc] using hsettles

/-- Rows are lines, the last of which is ended by what ends the rows. -/
theorem exists_rows_eq {fenced : Bool} {c : Char} (hc : Page.isBreak c = true) {s : String}
    {rows : List String} (h : ∀ s' ∈ s :: rows, s' ≠ "" ∧ (fenced = false → IsRow s')) :
    ∃ ls : List InkLine, (∀ l ∈ ls, l.IsSound) ∧
      (∀ rest, .char '\t' :: (if fenced then fencedInk s else inkOf s) ++
        ((rows.map fun s => if fenced then fencedInk s else inkOf s).flatMap fun row =>
          .char '\n' :: .char '\t' :: row) ++ .char c :: rest =
            ls.flatMap InkLine.ink ++ rest) ∧
      ls.flatMap InkLine.chars = lineChars ((s :: rows).map ("\t" ++ ·)) := by
  -- The break before a row ends the row above, and `c` ends the last one.
  induction rows generalizing s with
  | nil =>
    have hs := h s List.mem_cons_self
    refine ⟨[⟨true, fenced, s, c == '\x0c'⟩], ?_, fun rest => ?_, ?_⟩
    · exact List.forall_mem_singleton.2 ⟨hs.2, fun _ => hs.1⟩
    · simp [InkLine.ink, InkLine.strokes, eq_of_isBreak hc]
    · simp [InkLine.chars, lineChars]
  | cons s' rows ih =>
    rw [List.forall_mem_cons] at h
    obtain ⟨ls, hls, hink, hchars⟩ := ih h.2
    refine ⟨⟨true, fenced, s, false⟩ :: ls, ?_, fun rest => ?_, ?_⟩
    · exact List.forall_mem_cons.2 ⟨⟨h.1.2, fun _ => h.1.1⟩, hls⟩
    · rw [List.flatMap_cons, List.append_assoc (InkLine.ink _), ← hink]
      simp [InkLine.ink, InkLine.strokes]
    · rw [List.flatMap_cons, hchars]
      simp [InkLine.chars, lineChars]

/-- Rows after a line are lines after the break that ends it. -/
theorem exists_rowsInk_eq {fenced : Bool} {c : Char} (hc : Page.isBreak c = true)
    {rows : List String} (h : ∀ s ∈ rows, s ≠ "" ∧ (fenced = false → IsRow s)) :
    ∃ (c' : Char) (ls : List InkLine), Page.isBreak c' = true ∧ (∀ l ∈ ls, l.IsSound) ∧
      (∀ rest, rowsInk (rows.map fun s => if fenced then fencedInk s else inkOf s) ++
        .char c :: rest = .char c' :: (ls.flatMap InkLine.ink ++ rest)) ∧
      ls.flatMap InkLine.chars = lineChars (rows.map ("\t" ++ ·)) := by
  cases rows with
  | nil => exact ⟨c, [], hc, by simp, fun _ => rfl, rfl⟩
  | cons s rows =>
    obtain ⟨ls, hls, hink, hchars⟩ := exists_rows_eq hc h
    refine ⟨'\x0c', ls, rfl, hls, fun rest => ?_, hchars⟩
    rw [← hink]
    rfl

/-- Rows between a line and one that closes them become their texts. -/
theorem settlesOpen_braced {first close : String} {rows : List String} (fenced : Bool) {c : Char}
    (hfirst : IsRow first) (hrows : ∀ s ∈ rows, s ≠ "" ∧ (fenced = false → IsRow s))
    (hclose : IsRow close) (hc : Page.isBreak c = true) :
    SettlesOpen
      (inkOf first ++ rowsInk (rows.map fun s => if fenced then fencedInk s else inkOf s) ++
        .char c :: inkOf close)
      (first :: rows.map ("\t" ++ ·) ++ [close]) := by
  intro c₂ hc₂
  obtain ⟨c₁, ls, hc₁, hls, hink, hchars⟩ := exists_rowsInk_eq hc hrows
  have hsound : ∀ l ∈ (⟨false, false, first, c₁ == '\x0c'⟩ :: ls ++
      [⟨false, false, close, c₂ == '\x0c'⟩] : List InkLine), l.IsSound := by
    rw [List.forall_mem_append, List.forall_mem_cons, List.forall_mem_singleton]
    exact ⟨⟨⟨fun _ => hfirst, nofun⟩, hls⟩, ⟨fun _ => hclose, nofun⟩⟩
  have hsettles := settles_lines hsound (by rw [List.getLast?_concat]; simp)
  rw [List.flatMap_append, List.flatMap_cons, List.flatMap_singleton, List.flatMap_append,
    List.flatMap_cons, List.flatMap_singleton, hchars] at hsettles
  rw [List.append_assoc, List.append_assoc, List.cons_append, hink]
  simpa [InkLine.ink, InkLine.chars, InkLine.strokes, lineChars, eq_of_isBreak hc₁,
    eq_of_isBreak hc₂] using hsettles

/-- Rows of two cells after a line, with what ends them. -/
theorem rowsInk_pairs {ps : List (String × String)} (hps : ps ≠ []) (last : String × String)
    (rest : List Ink) :
    rowsInk ((ps ++ [last]).map fun p => inkOf (p.1 ++ "\x0b" ++ p.2)) ++ .char '\x0c' :: rest =
      .char '\x0c' :: (ps.flatMap (rowInk · false) ++ rowInk last true ++ rest) := by
  have hcell : ∀ p : String × String, inkOf (p.1 ++ "\x0b" ++ p.2) =
      inkOf p.1 ++ .char '\x0b' :: inkOf p.2 := by simp [inkOf]
  have hrest : ∀ ps : List (String × String),
      ((ps ++ [last]).map fun p => inkOf (p.1 ++ "\x0b" ++ p.2)).flatMap
        (fun row => .char '\n' :: .char '\t' :: row) ++ .char '\x0c' :: rest =
          .char '\n' :: (ps.flatMap (rowInk · false) ++ rowInk last true ++ rest) := by
    intro ps
    induction ps with
    | nil => simp [rowInk, hcell]
    | cons p ps ih =>
      rw [List.cons_append, List.map_cons, List.flatMap_cons, List.append_assoc, ih]
      simp [rowInk, hcell]
  obtain ⟨p, ps, rfl⟩ := List.exists_cons_of_ne_nil hps
  rw [List.cons_append, List.map_cons, rowsInk, List.append_assoc, hrest]
  simp [rowInk, hcell]

/-- Rows of two cells between a line and one that closes them become their texts, with the second
cells in one column. -/
theorem settlesOpen_pairs {first close : String} {ps : List (String × String)}
    (hfirst : IsRow first) (hps : ∀ p ∈ ps, IsPair p) (hclose : IsRow close)
    (hlength : 2 ≤ ps.length) :
    SettlesOpen (inkOf first ++ rowsInk (ps.map fun p => inkOf (p.1 ++ "\x0b" ++ p.2)) ++
      .char '\x0c' :: inkOf close)
      (first :: (ps.map fun p => "\t" ++ paddedRow (greatestWidth ps) p) ++ [close]) := by
  intro c hc
  obtain ⟨init, last, rfl⟩ : ∃ init last, ps = init ++ [last] :=
    ⟨_, _, (List.dropLast_append_getLast (List.length_pos_iff.1 (by omega))).symm⟩
  have hinit : init ≠ [] := by
    rintro rfl
    exact absurd hlength (by simp)
  have hrows := settles_rows hps
  generalize greatestWidth (init ++ [last]) = width at hrows ⊢
  have hopens : Settles (inkOf first ++ [.char '\x0c']) (lineChars [first]) :=
    settlesOpen_line false (fun _ => hfirst) '\x0c' rfl
  have hcloses : Settles (inkOf close ++ [.char c]) (lineChars [close]) :=
    settlesOpen_line false (fun _ => hclose) c hc
  rw [List.append_assoc, List.append_assoc, List.cons_append, rowsInk_pairs hinit]
  have hall := (hopens.append hrows).append hcloses
  have hchars : ∀ ps : List (String × String), ps.flatMap (fun p => (paddedLine width p).chars) =
      lineChars (ps.map fun p => "\t" ++ paddedRow width p) := by
    intro ps
    rw [lineChars, List.flatMap_map]
    exact List.flatMap_congr fun p _ => by simp [paddedLine, InkLine.chars]
  rw [hchars, ← lineChars_append, ← lineChars_append] at hall
  simpa using hall

/-! ## Declarations -/

/-- The cells of a field of a struct. -/
def NamedField.cells (p : NamedField) : String × String := (p.1, p.2.text)

/-- The texts of the lines in the braces of a type, with the types of fields in one column. -/
def TypeBody.texts : TypeBody → List String
  | struct fields =>
    (fields.map NamedField.cells).map (paddedRow (greatestWidth (fields.map NamedField.cells)))
  | interface methods => methods.map MethodShape.text

/-- The first line of a generic type. -/
def typeHead (n r keyword : String) : String :=
  "type " ++ n ++ typeParamText r ++ " " ++ keyword ++ " \x7b"

/-- The lines of a declaration. -/
def DeclShape.texts : DeclShape → List String
  | type n r body => typeHead n r body.keyword :: body.texts.map ("\t" ++ ·) ++ ["\x7d"]
  | var n s value => ["var " ++ n ++ " " ++ s.text ++ " = " ++ value.text]
  | function head ps result value =>
    ["func " ++ head.text ps result ++ " \x7b", "\treturn " ++ value.text, "\x7d"]

/-- The cells of a field make a row of two cells. -/
theorem NamedField.isPair_cells {p : NamedField} (h : ∀ w ∈ p.words, IsPlainWord w) : IsPair p.cells :=
  have hp := NamedField.isPlainWord h
  ⟨hp.1.clean, hp.1.ne_empty, hp.2.isRow, hp.2.ne_empty⟩

/-- The text of a method is a row. -/
theorem MethodShape.isRow_text {m : MethodShape} (h : ∀ w ∈ m.words, IsPlainWord w) :
    m.text ≠ "" ∧ IsRow m.text := by
  simp only [words, List.forall_mem_cons, List.forall_mem_append] at h
  refine ⟨?_, h.1.clean.append_signatureText (by simpa using h.2.1) h.2.2⟩
  simpa [text] using fun hname => absurd hname h.1.ne_empty

/-- The first line of a generic type is a row. -/
theorem isRow_typeHead {n r : String} (body : TypeBody) (hn : IsPlainWord n) (hr : IsPlainWord r) :
    IsRow (typeHead n r body.keyword) := by
  have hkeyword : IsClean body.keyword := by
    have hkeywords : IsClean "struct" ∧ IsClean "interface" := by decide
    cases body with
    | struct => exact hkeywords.1
    | interface => exact hkeywords.2
  have hbefore : IsClean ("type " ++ n ++ typeParamText r ++ " " ++ body.keyword ++ " ") :=
    ((((IsClean.append (by decide) hn.clean).append (isClean_typeParamText hr)).append
      (by decide)).append hkeyword).append (by decide)
  have hword : IsPlainWord "\x7b" := by decide
  simpa [typeHead, String.append_assoc] using hbefore.append_word hword

/-- The only field of a struct is a line without padding. -/
theorem TypeBody.texts_singleton (p : NamedField) :
    (TypeBody.struct [p]).texts = [p.1 ++ " " ++ p.2.text] := by
  have hpadded : paddedRow (greatestWidth [NamedField.cells p]) (NamedField.cells p) =
      p.1 ++ " " ++ p.2.text := by
    simp [paddedRow, greatestWidth, NamedField.cells]
  rw [← hpadded]
  rfl

/-- A generic type becomes its lines. -/
theorem settlesOpen_type {n r : String} {body : TypeBody}
    (h : ∀ w ∈ (DeclShape.type n r body).words, IsPlainWord w) :
    SettlesOpen (DeclShape.type n r body).ink (DeclShape.type n r body).texts := by
  simp only [DeclShape.words, List.forall_mem_cons] at h
  obtain ⟨hn, hr, hbody⟩ := h
  have hfirst := isRow_typeHead body hn hr
  have hclose : IsRow "\x7d" := IsPlainWord.isRow (by decide)
  have hbraced : ∀ rows : List String, (∀ s ∈ rows, s ≠ "" ∧ IsRow s) →
      SettlesOpen (inkOf (typeHead n r body.keyword) ++ bracedInk rows)
        (typeHead n r body.keyword :: rows.map ("\t" ++ ·) ++ ["\x7d"]) := by
    intro rows hrows
    have hall := settlesOpen_braced (c := '\x0c') false hfirst
      (fun s hs => ⟨(hrows s hs).1, fun _ => (hrows s hs).2⟩) hclose rfl
    simpa [bracedInk] using hall
  cases body with
  | interface methods =>
    refine hbraced _ (List.forall_mem_map.2 fun m hm => MethodShape.isRow_text ?_)
    exact fun w hw => hbody w (List.mem_flatMap.2 ⟨m, hm, hw⟩)
  | struct fields =>
    have hfields : ∀ p ∈ fields, ∀ w ∈ p.words, IsPlainWord w := fun p hp w hw =>
      hbody w (List.mem_flatMap.2 ⟨p, hp, hw⟩)
    -- Only two fields and more have their types in a column.
    rcases fields with - | ⟨p, - | ⟨p', fields⟩⟩
    · exact hbraced [] (by simp)
    · obtain ⟨hname, htype⟩ := NamedField.isPlainWord (hfields p List.mem_cons_self)
      have hrow : IsRow (p.1 ++ " " ++ p.2.text) :=
        (hname.clean.append (by decide)).append_word htype
      have hne : p.1 ++ " " ++ p.2.text ≠ "" := by simp
      have hall := hbraced [p.1 ++ " " ++ p.2.text] (List.forall_mem_singleton.2 ⟨hne, hrow⟩)
      rw [DeclShape.texts, TypeBody.texts_singleton]
      exact hall
    · have hpairs : ∀ q ∈ (p :: p' :: fields).map NamedField.cells, IsPair q :=
        List.forall_mem_map.2 fun q hq => NamedField.isPair_cells (hfields q hq)
      have hall := settlesOpen_pairs hfirst hpairs hclose (by simp)
      have hink : ((p :: p' :: fields).map NamedField.cells).map
          (fun p => inkOf (p.1 ++ "\x0b" ++ p.2)) =
            (TypeBody.struct (p :: p' :: fields)).rowTexts.map inkOf := by
        rw [TypeBody.rowTexts, List.map_map, List.map_map]
        rfl
      rw [hink, List.append_assoc] at hall
      rw [DeclShape.texts, TypeBody.texts, List.map_map]
      exact hall

/-- A declaration becomes its lines. -/
theorem settlesOpen_decl {s : DeclShape} (h : ∀ w ∈ s.words, IsPlainWord w) :
    SettlesOpen s.ink s.texts := by
  cases s with
  | type n r body => exact settlesOpen_type h
  | var n s value =>
    simp only [DeclShape.words, List.forall_mem_cons, List.forall_mem_append] at h
    have hbefore : IsClean ("var " ++ n ++ " " ++ s.text ++ " = ") :=
      (((IsClean.append (by decide) h.1.clean).append (by decide)).append
        (TypeShape.isPlainWord_text h.2.1).clean).append (by decide)
    exact settlesOpen_line false fun _ => hbefore.append_value h.2.2
  | function head ps result value =>
    simp only [DeclShape.words, List.forall_mem_append, List.forall_mem_flatMap] at h
    obtain ⟨⟨⟨hhead, hps⟩, hresult⟩, hvalue⟩ := h
    have hfirst : IsRow ("func " ++ head.text ps result ++ " \x7b") := by
      have hbefore : IsClean ("func " ++ head.text ps result ++ " ") :=
        (IsClean.append (by decide) (FunctionHead.isClean_text hhead hps hresult)).append (by decide)
      have hword : IsPlainWord "\x7b" := by decide
      simpa [String.append_assoc] using hbefore.append_word hword
    have hreturn : IsRow ("return " ++ value.text) := IsClean.append_value (by decide) hvalue
    have hne : "return " ++ value.text ≠ "" := by simp
    have hrows : ∀ s ∈ ["return " ++ value.text], s ≠ "" ∧ (false = false → IsRow s) :=
      List.forall_mem_singleton.2 ⟨hne, fun _ => hreturn⟩
    have hclose : IsRow "\x7d" := IsPlainWord.isRow (by decide)
    have hall := settlesOpen_braced (c := '\n') false hfirst hrows hclose rfl
    have htab : "\t" ++ ("return " ++ value.text) = "\treturn " ++ value.text :=
      (String.append_assoc ..).symm
    simpa [DeclShape.ink, DeclShape.texts, htab] using hall

/-! ## Files -/

/-- The lines of a declaration with its documentation, after an empty line. -/
def documentedTexts (s : List String × DeclShape) : List String := "" :: (s.1 ++ s.2.texts)

/-- An empty line becomes nothing. -/
theorem settlesOpen_nil : SettlesOpen [] [""] :=
  settlesOpen_line (s := "") false fun _ => ⟨by simp, by simp⟩

/-- Lines of documentation become their texts. -/
theorem settlesAfter_fenced (texts : List String) {rest : List Ink} {ls : List String}
    (h : SettlesAfter rest ls) :
    SettlesAfter ((texts.flatMap fun s => .char '\x0c' :: fencedInk s) ++ rest) (texts ++ ls) := by
  induction texts with
  | nil => exact h
  | cons s texts ih =>
    have hline : SettlesOpen (fencedInk s) [s] := settlesOpen_line true nofun
    rw [List.flatMap_cons, List.append_assoc]
    exact hline.settlesAfter ih rfl

/-- Declarations and the last break become their lines. -/
theorem settlesAfter_decls {ss : List (List String × DeclShape)}
    (h : ∀ s ∈ ss, ∀ w ∈ s.2.words, IsPlainWord w) :
    SettlesAfter (ss.flatMap documentedInk ++ [.char '\n']) (ss.flatMap documentedTexts) := by
  induction ss with
  | nil => exact .last
  | cons s ss ih =>
    rw [List.forall_mem_cons] at h
    have hdecl := (settlesOpen_decl h.1).settlesAfter (ih h.2) (c := '\n') rfl
    rw [List.flatMap_cons, List.append_assoc, List.flatMap_cons, documentedInk, documentedTexts]
    split
    · next hempty =>
      have hbreak : Page.isBreak (if s.2.isFunction then '\x0c' else '\n') = true := by
        split <;> rfl
      have hall := settlesOpen_nil.settlesAfter hdecl hbreak
      rw [List.isEmpty_iff.1 hempty, DeclShape.breakInk]
      simpa using hall
    · have hall := settlesOpen_nil.settlesAfter (settlesAfter_fenced s.1 hdecl)
        (c := '\x0c') rfl
      rw [docInk]
      simpa using hall

/-- The lines of imports. -/
def importTexts (paths : List String) : List String :=
  "import (" :: paths.map (fun p => "\t" ++ Text.quote p) ++ [")"]

/-- The lines of a file after the comment at its front. -/
def fileTexts (package : String) (paths : List String) (ss : List (List String × DeclShape)) :
    List String :=
  ("package " ++ package) :: ((if paths.isEmpty then [] else "" :: importTexts paths) ++
    ss.flatMap documentedTexts)

/-- Imports become their lines. -/
theorem settlesOpen_imports (paths : List String) :
    SettlesOpen (importsInk paths) (importTexts paths) := by
  have hclose : IsRow ")" := IsPlainWord.isRow (by decide)
  have hfirst : IsRow "import (" :=
    IsClean.append_word (a := "import ") (b := "(") (by decide) (by decide)
  have hrows : ∀ s ∈ paths.map Text.quote, s ≠ "" ∧ (true = false → IsRow s) :=
    List.forall_mem_map.2 fun p _ => ⟨by simp [Text.quote, ← String.toList_inj], nofun⟩
  have hall := settlesOpen_braced (c := '\x0c') true hfirst hrows hclose rfl
  simpa [importsInk, importTexts, Function.comp_def] using hall

/-- The ink of a file becomes its text. -/
theorem trimInk_setColumns_fileInk {header package : String} {paths : List String}
    {ss : List (List String × DeclShape)} (hpackage : IsPlainWord package)
    (hss : ∀ s ∈ ss, ∀ w ∈ s.2.words, IsPlainWord w) :
    trimInk (setColumns (fileInk header package paths ss)) = header.toList ++
      (if header.toList.any Page.isBreak then ['\n'] else ['\n', '\n']) ++
        lineChars (fileTexts package paths ss) := by
  have hdecls := settlesAfter_decls hss
  have himports : SettlesAfter ((if paths.isEmpty then [] else
      .char '\n' :: .char '\n' :: importsInk paths) ++ (ss.flatMap documentedInk ++ [.char '\n']))
      ((if paths.isEmpty then [] else "" :: importTexts paths) ++ ss.flatMap documentedTexts) := by
    split
    · exact hdecls
    · exact settlesOpen_nil.settlesAfter ((settlesOpen_imports paths).settlesAfter hdecls
        (c := '\n') rfl) (c := '\n') rfl
  have hclause : SettlesOpen (inkOf ("package " ++ package)) ["package " ++ package] :=
    settlesOpen_line false fun _ => IsClean.append_word (by decide) hpackage
  have hheader : SettlesOpen (fencedInk header) [header] := settlesOpen_line true nofun
  unfold fileInk frontEnd
  split
  · have hall := hheader.settles (hclause.settlesAfter himports (c := '\x0c') rfl)
    have htext := hall.trimInk_setColumns
    simpa [fileTexts, lineChars] using htext
  · have hall := hheader.settles (settlesOpen_nil.settlesAfter (hclause.settlesAfter himports
      (c := '\n') rfl) (c := '\n') rfl)
    have htext := hall.trimInk_setColumns
    simpa [fileTexts, lineChars] using htext

/-- A file is laid out as the comment at its front and its lines. -/
theorem Source.layOut_eq {source : Source} {tree : SourceTree} {header package : String}
    {paths : List String} {ss : List (List String × DeclShape)} {imports others : List Decl}
    {g : List Comment} {gs : List (List Comment)} (hcomments : source.comments = g :: gs)
    (hfront : (WaitingGroup.of source.table g).IsFront source.table tree.start header)
    (hstart : source.table.Has 3 "package" tree.start)
    (hname : tree.name.IsOn source.table 3 package) (hdecls : tree.decls = imports ++ others)
    (himports : MayBeSortedImports source.table 5 paths imports)
    (hothers : AreDocumented source.table (importsEnd paths + 2) ss others
      (gs.map (WaitingGroup.of source.table)))
    (hquiet : ∀ m ≤ importsEnd paths,
      QuietOn source.table (gs.map (WaitingGroup.of source.table)) m)
    (hpackage : IsPlainWord package) (hss : ∀ s ∈ ss, ∀ w ∈ s.2.words, IsPlainWord w) :
    source.layOut tree = String.ofList (header.toList ++
      (if header.toList.any Page.isBreak then ['\n'] else ['\n', '\n']) ++
        lineChars (fileTexts package paths ss)) := by
  obtain ⟨p, hrun, hink, hnew, hold⟩ := exists_write_file (d := 8 * source.tokens.length + 57)
    hfront hstart hname hdecls himports hothers hquiet
  have hpage : (tree.write (.ofDepth (8 * source.tokens.length + 64))).run
      { table := source.table, normalises := true,
        comments := source.comments.map (WaitingGroup.of source.table) } = ((), p) := by
    rw [hcomments]
    exact hrun
  have hgather : gatherConstraints p.finish.ink.reverse p.finish.newConstraints.reverse
      p.finish.oldConstraints.reverse = fileInk header package paths ss := by
    rw [hnew, hold, hink]
    rfl
  rw [Source.layOut, hpage, hgather, trimInk_setColumns_fileInk hpackage hss]

end NodeFamily.Layout
