import Mathlib.Data.List.Induction
import NodeFamily.Proofs.FirstFault

/-!
# What a fault points at

A fault that reading reports shows a piece of the text and, unless the colon is missing, a column in
it. Columns are counted by the lexer while it goes through the declaration, and segments are cut
from its tokens. `parse_locates` says of both what they are in terms of the declaration alone: the
column is that of the first character of what the fault is about (`columnAfter`), counted from the
last line break before it, and the piece is the declaration or the segment without the white space
at its ends.

A place is named by the text before it, from the beginning of the declaration. For a segment this is
`textBefore`, and what a fault blames in a segment stands after the further text that `BlamesAfter`
relates to it.
-/

namespace NodeFamily

open Token (lexFrom significant)

/-! ## Columns -/

/-- The column of the character after a text: one more than the number of characters after the last
line break, or than all of them when there is none. -/
def columnAfter (before : List Char) : Nat := (before.reverse.takeWhile (· ≠ '\n')).length + 1

/-- One more character puts what follows it in the next column, or at the beginning of a line. -/
theorem columnAfter_concat (before : List Char) (c : Char) :
    columnAfter (before ++ [c]) = if c = '\n' then 1 else columnAfter before + 1 := by
  unfold columnAfter
  by_cases hc : c = '\n'
  · simp [hc]
  · simp [hc]

/-- The lexer counts columns from the last line break. -/
theorem column_advance_start (before : List Char) :
    (Position.start.advance before).column = columnAfter before := by
  -- A line break forgets the columns before it, so the induction is from the end of the text.
  induction before using List.reverseRecOn with
  | nil => rfl
  | append_singleton before c ih =>
    rw [Position.advance_append, columnAfter_concat, ← ih]
    rfl

/-- A comma or a colon is followed by the next column. -/
theorem column_advance_separator (p : Position) {sep : Char} (h : sep = ':' ∨ sep = ',') :
    (p.advance [sep]).column = p.column + 1 := by
  rcases h with rfl | rfl <;> rfl

/-! ## Where the tokens of a piece stand -/

/-- The first token that shows stands at the first character that is not spacing. -/
theorem exists_position_eq {p : Position} {cs : List Char} {t : Token} {ts : List Token}
    (h : significant (lexFrom p cs) = t :: ts) :
    ∃ a c rest, cs = a ++ c :: rest ∧ IsGap a ∧ Text.isSpacing c = false ∧
      t.position = p.advance a := by
  obtain ⟨a, rest, rfl, ha, hrest⟩ := Token.exists_gap cs
  rw [Token.significant_lexFrom_gap ha] at h
  cases rest with
  | nil => simp at h
  | cons c rest =>
    rw [Token.significant_lexFrom_cons (hrest c rfl)] at h
    obtain ⟨rfl, -⟩ := List.cons.inj h
    exact ⟨a, c, rest, rfl, ha, hrest c rfl, rfl⟩

/-- A text that has something other than spacing begins with the spacing before that. -/
theorem takeWhile_isSpacing {a : List Char} (ha : IsGap a) {c : Char}
    (hc : Text.isSpacing c = false) (rest : List Char) :
    (a ++ c :: rest).takeWhile Text.isSpacing = a := by
  rw [Text.takeWhile_append_stop hc, List.takeWhile_eq_self_iff]
  exact ha

/-- The first token that shows has the column after the spacing at the front. -/
theorem column_eq_of_significant {before cs : List Char} {t : Token} {ts : List Token}
    (h : significant (lexFrom (Position.start.advance before) cs) = t :: ts) :
    t.position.column = columnAfter (before ++ cs.takeWhile Text.isSpacing) := by
  obtain ⟨a, c, rest, rfl, ha, hc, hposition⟩ := exists_position_eq h
  rw [hposition, ← Position.advance_append, column_advance_start, takeWhile_isSpacing ha hc]

/-- The two words `t` and `n` with the text before, between and after them, which is spacing. -/
structure StandsAs (cs a : List Char) (t : String) (b : List Char) (n : String) (c : List Char) :
    Prop where
  /-- Nothing else shows. -/
  words : ShowsWords cs t n
  /-- The parts follow one another to the text. -/
  text : cs = a ++ t.toList ++ b ++ n.toList ++ c
  /-- There is spacing before the first word. -/
  before : IsGap a
  /-- There is spacing between the words, or nothing when the second one begins with a star. -/
  between : IsGap b
  /-- There is spacing after the second word. -/
  after : IsGap c

/-- Two words stand where their tokens do. -/
theorem exists_standsAs {p : Position} {cs : List Char} {type name : Token}
    (h : significant (lexFrom p cs) = [type, name]) (htype : type.kind = .word)
    (hname : name.kind = .word) :
    ∃ a b c, StandsAs cs a type.text b name.text c ∧ type.position = p.advance a ∧
      name.position = p.advance (a ++ type.text.toList ++ b) := by
  have hwords : ShowsWords cs type.text name.text :=
    (showsWords_iff p).2 ⟨type, name, h, htype, hname, rfl, rfl⟩
  -- Each token is taken off the front together with the spacing before it.
  obtain ⟨a, t, rest, rfl, ha, -, htext, hposition, hrest, -⟩ :=
    Token.exists_of_significant_lexFrom_eq_cons h
  obtain ⟨b, n, c, rfl, hb, -, hntext, hnposition, hc, -⟩ :=
    Token.exists_of_significant_lexFrom_eq_cons hrest.symm
  refine ⟨a, b, c, ⟨hwords, ?_, ha, hb, Token.significant_lexFrom_eq_nil_iff.1 hc.symm⟩, hposition,
    ?_⟩
  · rw [htext, hntext, String.toList_ofList, String.toList_ofList]
    simp only [List.append_assoc]
  · rw [hnposition, htext, String.toList_ofList, ← Position.advance_append]

/-! ## The text before a segment -/

/-- The text of a declaration before its segment `j`: the header, the colon, and each segment before
it with the comma after that. -/
def textBefore (d : String) (j : Nat) : List Char :=
  headerText d ++ ':' :: ((segmentTexts d).take j).flatMap (· ++ [','])

/-- Pieces after some of them with their separators are found in the text that all make. -/
theorem flatMap_take_append_prefix {pieces : List (List Char)} {k : Nat} {cs : List Char}
    (hcs : pieces[k]? = some cs) :
    (pieces.take k).flatMap (· ++ [',']) ++ cs <+: [','].intercalate pieces := by
  induction pieces generalizing k with
  | nil => simp at hcs
  | cons piece pieces ih =>
    cases k with
    | zero =>
      obtain rfl : piece = cs := by simpa using hcs
      cases pieces with
      | nil => simp
      | cons next pieces =>
        rw [List.intercalate_cons_cons]
        simp
    | succ k =>
      rw [List.getElem?_cons_succ] at hcs
      cases pieces with
      | nil => simp at hcs
      | cons next pieces =>
        rw [List.intercalate_cons_cons, List.take_succ_cons, List.flatMap_cons, List.append_assoc,
          List.prefix_append_right_inj]
        exact ih hcs

/-- A segment stands in its declaration after the text before it. -/
theorem textBefore_append_prefix {d : String} {j : Nat} {cs : List Char}
    (hcs : (segmentTexts d)[j]? = some cs) : textBefore d j ++ cs <+: d.toList := by
  obtain ⟨rest, hd, -, hsegments⟩ := exists_segmentTexts (colon_of_segmentTexts hcs)
  rw [textBefore, hd, List.append_assoc, List.prefix_append_right_inj, List.cons_append,
    List.cons_prefix_cons]
  refine ⟨rfl, ?_⟩
  rw [hsegments] at hcs ⊢
  have hprefix := flatMap_take_append_prefix hcs
  rwa [Text.intercalate_cutAt] at hprefix

/-- A segment of pieces is lexed from the place after the pieces before it, and the separator before
it stands in the column before that place. -/
theorem exists_segmentsOf_getElem? {separator : Token} {p : Position}
    (hseparator : p.column = separator.position.column + 1) {pieces : List (List Char)} {k : Nat}
    {cs : List Char} (hcs : pieces[k]? = some cs) :
    ∃ separator' : Token,
      (Segment.segmentsOf separator p pieces)[k]? =
        some ⟨separator', lexFrom (p.advance ((pieces.take k).flatMap (· ++ [',']))) cs⟩ ∧
      (p.advance ((pieces.take k).flatMap (· ++ [',']))).column =
        separator'.position.column + 1 := by
  induction pieces generalizing separator p k with
  | nil => simp at hcs
  | cons piece pieces ih =>
    rw [Segment.segmentsOf]
    cases k with
    | zero =>
      obtain rfl : piece = cs := by simpa using hcs
      exact ⟨separator, rfl, hseparator⟩
    | succ k =>
      -- The comma after the first piece stands before the pieces that follow.
      let comma : Token := ⟨.comma, ",", p.advance piece⟩
      have hcomma : (p.advance (piece ++ [','])).column = comma.position.column + 1 := by
        rw [Position.advance_append, column_advance_separator _ (.inr rfl)]
      rw [List.getElem?_cons_succ] at hcs ⊢
      obtain ⟨separator', hget, hcolumn⟩ := ih hcomma hcs
      refine ⟨separator', ?_, ?_⟩
      · rw [hget, List.take_succ_cons, List.flatMap_cons,
          Position.advance_append p (piece ++ [','])]
      · rw [List.take_succ_cons, List.flatMap_cons, Position.advance_append p (piece ++ [',']),
          hcolumn]

/-- Segment `j` of a declaration is read as it stands in the text, with the names of the segments
before it that pass alone. The separator before it stands in the column before its own. -/
theorem exists_readSegments_textBefore (i : Nat) {d : String} {j : Nat} {cs : List Char}
    (hcs : (segmentTexts d)[j]? = some cs) :
    ∃ names separator, (∀ n, n ∈ names ↔
        ∃ k < j, ∃ cs', (segmentTexts d)[k]? = some cs' ∧ PassesAlone d cs' n) ∧
      columnAfter (textBefore d j) = separator.position.column + 1 ∧
      (readSegments i ((Declaration.ofString d).name?.getD "") [] 0
        (Segment.segmentsOf (Declaration.colonAfter (headerText d))
          (Position.start.advance (headerText d ++ [':'])) (segmentTexts d)))[j]? =
        some (Segment.read (.field i j) ((Declaration.ofString d).name?.getD "") names
          ⟨separator, lexFrom (Position.start.advance (textBefore d j)) cs⟩) := by
  obtain ⟨names, separator, p, hnames, hsegment, hread⟩ := exists_readSegments_getElem? i d [] 0
    (Declaration.colonAfter (headerText d)) (Position.start.advance (headerText d ++ [':'])) hcs
  have hcolon : (Position.start.advance (headerText d ++ [':'])).column =
      (Declaration.colonAfter (headerText d)).position.column + 1 := by
    rw [Position.advance_append, column_advance_separator _ (.inl rfl)]
    rfl
  -- The same segment is lexed from the place after the text before it.
  obtain ⟨separator', hget, hcolumn⟩ := exists_segmentsOf_getElem? hcolon hcs
  rw [hsegment] at hget
  rw [Option.some.inj hget, ← Position.advance_append, List.append_assoc, Nat.zero_add] at hread
  rw [← Position.advance_append, List.append_assoc, column_advance_start] at hcolumn
  exact ⟨names, separator', by simpa using hnames, hcolumn, hread⟩

/-! ## What a fault of a segment is about -/

/-- What a fault is about in segment `j` of declaration `d`, which is the text `cs`: the last text is
what stands before that in the segment. -/
inductive BlamesAfter (decls : List String) (d : String) (j : Nat) (cs : List Char) (f : Fault) :
    List Char → Prop
  /-- There is nothing but spacing, and the fault is about the place where the segment begins. -/
  | blank (hcode : f.code = .malformedField) (hcs : IsGap cs) : BlamesAfter decls d j cs f []
  /-- There are not two words, and the fault is about what there is. -/
  | malformed {a rest : List Char} {c : Char} (hcode : f.code = .malformedField)
      (hwords : ¬∃ t n, ShowsWords cs t n) (hcs : cs = a ++ c :: rest) (ha : IsGap a)
      (hc : Text.isSpacing c = false) : BlamesAfter decls d j cs f a
  /-- The first word is no legal type, or it is one that names a variant. -/
  | type {a b c : List Char} {t n : String} {p : NameProblem} (hcode : f.code = .invalidName)
      (hcs : StandsAs cs a t b n c) (hproblem : typeProblem? (declares decls) t = some p)
      (hdetail : f.detail = p.text) : BlamesAfter decls d j cs f a
  /-- The second word is no legal name in its declaration. -/
  | name {a b c : List Char} {t n : String} {p : NameProblem} (hcode : f.code = .invalidName)
      (hcs : StandsAs cs a t b n c) (htype : IsLegalType [] t)
      (hproblem : fieldProblem? n n ((Declaration.ofString d).name?.getD "") = some p)
      (hdetail : f.detail = p.text) : BlamesAfter decls d j cs f (a ++ t.toList ++ b)
  /-- The second word is the name of an earlier segment that passes alone. -/
  | repeated {a b c : List Char} {t n : String} (hcode : f.code = .duplicateField)
      (hcs : StandsAs cs a t b n c) (htype : IsLegalType [] t) (hname : IsFieldName d n)
      (hearlier : ∃ k < j, ∃ cs', (segmentTexts d)[k]? = some cs' ∧ PassesAlone d cs' n) :
      BlamesAfter decls d j cs f (a ++ t.toList ++ b)

/-- What is wrong with a type without knowing the variants is wrong with it among variants. -/
theorem typeProblem?_of_eq_some {isVariant : String → Bool} {t : String} {p : NameProblem}
    (h : typeProblem? (fun _ => false) t = some p) : typeProblem? isVariant t = some p := by
  unfold typeProblem? at h ⊢
  dsimp only at h ⊢
  split_ifs at h ⊢
  all_goals simp_all

/-- A segment that is not two words is blamed where its first token stands, or after its separator
when nothing shows. -/
theorem exists_blamesAfter_malformed (decls : List String) (d : String) (j : Nat) {place : Place}
    {separator : Token} {before cs : List Char}
    (hseparator : columnAfter before = separator.position.column + 1)
    (hwords : ¬∃ t n, ShowsWords cs t n) :
    ∃ after, BlamesAfter decls d j cs
        (Segment.malformed place ⟨separator, lexFrom (Position.start.advance before) cs⟩) after ∧
      (Segment.malformed place ⟨separator, lexFrom (Position.start.advance before) cs⟩).column? =
        some (columnAfter (before ++ after)) := by
  unfold Segment.malformed Segment.column
  dsimp only
  cases hts : significant (lexFrom (Position.start.advance before) cs) with
  | nil =>
    refine ⟨[], .blank rfl (Token.significant_lexFrom_eq_nil_iff.1 hts), ?_⟩
    rw [List.append_nil, hseparator]
  | cons t ts =>
    obtain ⟨a, c, rest, hcs, ha, hc, hposition⟩ := exists_position_eq hts
    refine ⟨a, .malformed rfl hwords hcs ha hc, ?_⟩
    dsimp only
    rw [hposition, ← Position.advance_append, column_advance_start]

/-- A segment that is not two words is at fault for that. -/
theorem read_of_not_showsWords {place : Place} {variant : String} {names : List String}
    {separator : Token} {p : Position} {cs : List Char} (h : ¬∃ t n, ShowsWords cs t n) :
    Segment.read place variant names ⟨separator, lexFrom p cs⟩ =
      .error (Segment.malformed place ⟨separator, lexFrom p cs⟩) := by
  unfold Segment.read
  split
  · next type name hts =>
    refine if_neg fun hkinds => h ⟨type.text, name.text, (showsWords_iff p).2 ?_⟩
    exact ⟨type, name, hts, hkinds.1, hkinds.2, rfl, rfl⟩
  · rfl

/-- A fault of two words has the column of the one that it is about, when they stand after `before`
and are read with the names of the segments before theirs. -/
theorem exists_blamesAfter_words {decls : List String} {d : String} {j : Nat} {place : Place}
    {names : List String} {text : String} {before cs : List Char} {type name : Token}
    (hnames : ∀ n ∈ names, ∃ k < j, ∃ cs', (segmentTexts d)[k]? = some cs' ∧ PassesAlone d cs' n)
    (hts : significant (lexFrom (Position.start.advance before) cs) = [type, name])
    (htype : type.kind = .word) (hname : name.kind = .word) {f : Fault}
    (h : IsFaultOf (declares decls)
      (readField place ((Declaration.ofString d).name?.getD "") names text type name) f) :
    f.text = text ∧ ∃ after, BlamesAfter decls d j cs f after ∧
      f.column? = some (columnAfter (before ++ after)) := by
  obtain ⟨a, b, c, hstands, htypeAt, hnameAt⟩ := exists_standsAs hts htype hname
  have htypeColumn : some type.position.column = some (columnAfter (before ++ a)) := by
    rw [htypeAt, ← Position.advance_append, column_advance_start]
  have hnameColumn : some name.position.column =
      some (columnAfter (before ++ (a ++ type.text.toList ++ b))) := by
    rw [hnameAt, ← Position.advance_append, column_advance_start]
  -- The checks go in order: the type, the name, its repetition, and at last the variants.
  unfold readField at h
  split at h
  · next p hp =>
    obtain rfl : _ = f := by simpa [IsFaultOf, faultOf?, readingOf?] using h
    exact ⟨rfl, a, .type rfl hstands (typeProblem?_of_eq_some hp) rfl, htypeColumn⟩
  · next hp =>
    have hlegal : IsLegalType [] type.text := typeProblem?_eq_none_iff_alone.1 hp
    split at h
    · next p hp =>
      obtain rfl : _ = f := by simpa [IsFaultOf, faultOf?, readingOf?] using h
      exact ⟨rfl, _, .name rfl hstands hlegal hp rfl, hnameColumn⟩
    · next hfield =>
      split_ifs at h with hearlier
      · obtain rfl : _ = f := by simpa [IsFaultOf, faultOf?, readingOf?] using h
        have hfieldName := fieldProblem?_eq_none_iff_isFieldName.1 hfield
        have htaken := hnames name.text (by simpa using hearlier)
        exact ⟨rfl, _, .repeated rfl hstands hlegal hfieldName htaken, hnameColumn⟩
      · simp [IsFaultOf, faultOf?, readingOf?] at h
      · obtain ⟨p, hp, rfl⟩ : ∃ p, typeProblem? (declares decls) type.text = some p ∧ _ = f := by
          simpa [IsFaultOf, faultOf?, readingOf?, LeafUse.fault?] using h
        exact ⟨rfl, a, .type rfl hstands hp rfl, htypeColumn⟩

/-- A fault of a segment has the text of the segment and the column of what it is about, when the
segment stands after `before` and is read with the names of the segments before it. -/
theorem IsFaultOf.exists_blamesAfter {decls : List String} {d : String} {j : Nat} {place : Place}
    {names : List String} {separator : Token} {before cs : List Char}
    (hseparator : columnAfter before = separator.position.column + 1)
    (hnames : ∀ n ∈ names, ∃ k < j, ∃ cs', (segmentTexts d)[k]? = some cs' ∧ PassesAlone d cs' n)
    {f : Fault}
    (h : IsFaultOf (declares decls)
      (Segment.read place ((Declaration.ofString d).name?.getD "") names
        ⟨separator, lexFrom (Position.start.advance before) cs⟩) f) :
    f.text = Text.trim (String.ofList cs) ∧
      ∃ after, BlamesAfter decls d j cs f after ∧
        f.column? = some (columnAfter (before ++ after)) := by
  have htext := Segment.text_lexFrom separator (Position.start.advance before) cs
  by_cases hwords : ∃ t n, ShowsWords cs t n
  · obtain ⟨t, n, hwords⟩ := hwords
    obtain ⟨type, name, hts, htype, hname, -, -⟩ :=
      (showsWords_iff (Position.start.advance before)).1 hwords
    unfold Segment.read at h
    dsimp only at h
    rw [hts] at h
    dsimp only at h
    rw [if_pos ⟨htype, hname⟩, htext] at h
    exact exists_blamesAfter_words hnames hts htype hname h
  · rw [read_of_not_showsWords hwords] at h
    obtain rfl : _ = f := by simpa [IsFaultOf, faultOf?, readingOf?] using h
    exact ⟨htext, exists_blamesAfter_malformed decls d j hseparator hwords⟩

/-! ## Where faults are and what they show -/

/-- What a fault shows of its place. A fault of the list as a whole shows nothing. A fault of a
declaration shows the declaration, and unless the colon is missing the column of the first character
of the header that is not spacing, or of the colon when there is none. A fault of a segment shows
the segment and the column of what it is about. Texts are shown without white space at their
ends. -/
def Fault.IsLocated (decls : List String) (f : Fault) : Prop :=
  match f.place with
  | .schema => f.text = "" ∧ f.column? = none
  | .declaration i => ∃ d, decls[i]? = some d ∧ f.text = Text.trim d ∧
      if ':' ∈ d.toList then
        f.column? = some (columnAfter ((headerText d).takeWhile Text.isSpacing))
      else f.code = .missingSeparator ∧ f.column? = none
  | .field i j => ∃ d cs after, decls[i]? = some d ∧ (segmentTexts d)[j]? = some cs ∧
      textBefore d j ++ cs <+: d.toList ∧ f.text = Text.trim (String.ofList cs) ∧
      BlamesAfter decls d j cs f after ∧ f.column? = some (columnAfter (textBefore d j ++ after))

/-- A fault of the header shows the declaration and the column of the first token. -/
theorem column?_of_headerFault? {names : List (Option String)} {i : Nat} {d : String} {f : Fault}
    (h : (Declaration.ofString d).headerFault? names i
      (significant (lexFrom .start (headerText d))) (Declaration.colonAfter (headerText d)) =
        some f) :
    f.text = Text.trim d ∧
      f.column? = some (columnAfter ((headerText d).takeWhile Text.isSpacing)) := by
  cases hts : significant (lexFrom .start (headerText d)) with
  | nil =>
    -- All of the header is spacing, and the colon after it is blamed.
    have hgap : (headerText d).takeWhile Text.isSpacing = headerText d :=
      List.takeWhile_eq_self_iff.2 (Token.significant_lexFrom_eq_nil_iff.1 hts)
    rw [hts] at h
    obtain rfl := Option.some.inj h
    rw [hgap, ← column_advance_start]
    exact ⟨rfl, rfl⟩
  | cons t ts =>
    have hcolumn : t.position.column = columnAfter ((headerText d).takeWhile Text.isSpacing) :=
      @column_eq_of_significant [] _ _ _ hts
    rw [← hcolumn]
    rw [hts] at h
    -- Whatever else is wrong with the header, its first token is blamed.
    unfold Declaration.headerFault? at h
    split at h
    · next heq => exact absurd heq (by simp)
    · next u heq =>
      obtain ⟨rfl, -⟩ := List.cons.inj heq
      split_ifs at h
      · obtain rfl := Option.some.inj h
        exact ⟨rfl, rfl⟩
      · split at h
        · obtain rfl := Option.some.inj h
          exact ⟨rfl, rfl⟩
        · dsimp only at h
          split_ifs at h
          obtain rfl := Option.some.inj h
          exact ⟨rfl, rfl⟩
    · next u us _ heq =>
      obtain ⟨rfl, -⟩ := List.cons.inj heq
      obtain rfl := Option.some.inj h
      exact ⟨rfl, rfl⟩

/-- What is reported of a declaration shows its place. -/
theorem isLocated_of_mem_faultsOf {decls : List String} {i : Nat} {d : String}
    (hd : decls[i]? = some d) {f : Fault} (hf : f ∈ faultsOf decls i d) : f.IsLocated decls := by
  by_cases hcolon : ':' ∈ d.toList
  · rcases (mem_faultsOf_iff hcolon).1 hf with hheader | ⟨r, hr, hfault⟩
    · unfold Fault.IsLocated
      rw [place_of_headerFault? hheader]
      obtain ⟨htext, hcolumn⟩ := column?_of_headerFault? hheader
      exact ⟨d, hd, htext, by rwa [if_pos hcolon]⟩
    · obtain ⟨j, hj⟩ := List.mem_iff_getElem?.1 hr
      obtain ⟨cs, hcs⟩ := exists_piece_of_readSegments hj
      obtain ⟨names, separator, hnames, hseparator, hread⟩ :=
        exists_readSegments_textBefore i hcs
      rw [hread] at hj
      obtain rfl := Option.some.inj hj
      obtain ⟨htext, after, hblames, hblamed⟩ :=
        hfault.exists_blamesAfter hseparator fun n => (hnames n).1
      unfold Fault.IsLocated
      rw [hfault.place]
      exact ⟨d, _, after, hd, hcs, textBefore_append_prefix hcs, htext, hblames, hblamed⟩
  · rw [faultsOf_of_not_mem hcolon] at hf
    obtain rfl := List.mem_singleton.1 hf
    exact ⟨d, hd, rfl, by rw [if_neg hcolon]; exact ⟨rfl, rfl⟩⟩

/-- Each fault that reading reports, whether it stops at the first one or not, shows its place as
the declarations have it. -/
theorem parse_locates {failFast : Bool} {decls : List String} {faults : List Fault}
    (h : parse failFast decls = .error faults) : ∀ f ∈ faults, f.IsLocated decls := by
  intro f hf
  by_cases hne : decls = []
  · subst hne
    obtain rfl : faults = [noDeclarations] := by
      simpa [parse] using h.symm
    obtain rfl := List.mem_singleton.1 hf
    exact ⟨rfl, rfl⟩
  · obtain ⟨i, d, hd, hmem⟩ :=
      (mem_reportedFaults_iff hne).1 (mem_reportedFaults_of_parse h hf)
    exact isLocated_of_mem_faultsOf hd hmem

/-- A declaration over three lines, in which a type names the variant, a segment is blank and a name
is repeated, and one without a name. -/
theorem parse_locates_lines :
    let decls := ["\n Ä : é x,\n\tÄ y, ,\nT x", " :"]
    ∃ faults, parse false decls = .error faults ∧
      faults.map (fun f => (f.place, f.column?, f.text)) =
        [(.field 0 2, some 6, ""), (.field 0 3, some 3, "T x"), (.field 0 1, some 2, "Ä y"),
          (.declaration 1, some 2, ":"), (.field 1 0, some 3, "")] ∧
      ∀ f ∈ faults, f.IsLocated decls := by
  intro decls
  have hplaces : (reportedFaults decls).map (fun f => (f.place, f.column?, f.text)) =
      [(.field 0 2, some 6, ""), (.field 0 3, some 3, "T x"), (.field 0 1, some 2, "Ä y"),
        (.declaration 1, some 2, ":"), (.field 1 0, some 3, "")] := by
    rw [reportedFaults_eq (by simp [decls])]
    decide +kernel
  unfold reportedFaults at hplaces
  cases hparse : parse false decls with
  | ok s => simp [hparse] at hplaces
  | error faults =>
    rw [hparse] at hplaces
    exact ⟨faults, rfl, hplaces, parse_locates hparse⟩

end NodeFamily
