import NodeFamily.Proofs.MalformedSegments

/-!
# The types of leaves, read again

A leaf that passes the first round of reading is looked at once more when all variants are known.
Until then a `LeafUse` keeps the segment as it is written and beside it the type. The type alone
could be read again: `leaf_types_reread` says that the words of the text, with white space of any
kind between them, are the type that was checked and the name, and that a second round that goes by
the first word of each text (`rereadFaults?`) never misses a word and finds the same faults.

Two notions of white space meet here. The lexer passes over spacing only, and a text is divided into
words by white space of any kind. They agree on the segments that are kept, since no character of a
word is white space and since a name, unlike other words, does not begin with a star, so that it
cannot follow the type at once (`ShowsWords.words_eq`).
-/

namespace NodeFamily

open Token (lexFrom significant)

/-! ## The words of a text -/

namespace Text

/-- White space before a text gives no words. -/
theorem wordsFrom_blank {a : List Char} (ha : IsBlankText a) (cs : List Char) :
    wordsFrom [] (a ++ cs) = wordsFrom [] cs := by
  induction a with
  | nil => rfl
  | cons c a ih =>
    obtain ⟨hc, ha⟩ := List.forall_mem_cons.1 ha
    rw [List.cons_append, wordsFrom, if_pos hc]
    exact ih ha

/-- White space alone has no words. -/
theorem wordsFrom_eq_nil {b : List Char} (hb : IsBlankText b) : wordsFrom [] b = [] := by
  have hnone := wordsFrom_blank hb []
  rwa [List.append_nil] at hnone

/-- White space after a text gives no words, and it ends the one that is being read. -/
theorem wordsFrom_append_blank {b : List Char} (hb : IsBlankText b) (run cs : List Char) :
    wordsFrom run (cs ++ b) = wordsFrom run cs := by
  -- The induction is over the reading of `cs`. At its end the white space closes the word that is
  -- open, just as the end of the text does.
  fun_induction wordsFrom run cs with
  | case1 run hrun =>
    obtain rfl := List.isEmpty_iff.1 hrun
    exact wordsFrom_eq_nil hb
  | case2 run hrun =>
    cases b with
    | nil => simp [wordsFrom, hrun]
    | cons c b =>
      obtain ⟨hc, hb⟩ := List.forall_mem_cons.1 hb
      rw [List.nil_append, wordsFrom, if_pos hc, if_neg hrun, wordsFrom_eq_nil hb]
  | case3 run c rest hc hrun ih => rw [List.cons_append, wordsFrom, if_pos hc, if_pos hrun, ih]
  | case4 run c rest hc hrun ih => rw [List.cons_append, wordsFrom, if_pos hc, if_neg hrun, ih]
  | case5 run c rest hc ih => rw [List.cons_append, wordsFrom, if_neg hc, ih]

/-- Characters other than white space go on with the word that is being read. -/
theorem wordsFrom_run {w : List Char} (hw : ∀ c ∈ w, isBlank c = false) (run cs : List Char) :
    wordsFrom run (w ++ cs) = wordsFrom (w.reverse ++ run) cs := by
  induction w generalizing run with
  | nil => rfl
  | cons c w ih =>
    obtain ⟨hc, hw⟩ := List.forall_mem_cons.1 hw
    rw [List.cons_append, wordsFrom, if_neg (by simp [hc]), ih hw, List.reverse_cons,
      List.append_assoc]
    rfl

/-- A text without white space is one word. -/
theorem wordsFrom_word {w : List Char} (hne : w ≠ []) (hw : ∀ c ∈ w, isBlank c = false) :
    wordsFrom [] w = [w] := by
  have hrun := wordsFrom_run hw [] []
  rw [List.append_nil, List.append_nil] at hrun
  rw [hrun, wordsFrom, if_neg (by simp [hne]), List.reverse_reverse]

/-- A word ends where white space begins. -/
theorem wordsFrom_word_append {w b : List Char} (hne : w ≠ []) (hw : ∀ c ∈ w, isBlank c = false)
    (hb : IsBlankText b) (hbne : b ≠ []) (cs : List Char) :
    wordsFrom [] (w ++ (b ++ cs)) = w :: wordsFrom [] cs := by
  obtain ⟨c, b, rfl⟩ := List.exists_cons_of_ne_nil hbne
  obtain ⟨hc, hb⟩ := List.forall_mem_cons.1 hb
  rw [wordsFrom_run hw, List.append_nil, List.cons_append, wordsFrom, if_pos hc,
    if_neg (by simp [hne]), List.reverse_reverse, wordsFrom_blank hb]

/-- A text has the words that are left of it without white space at its ends. -/
theorem words_trim (s : String) : words (trim s) = words s := by
  obtain ⟨a, b, hs, ha, hb⟩ := exists_trimChars s.toList
  have hwords : wordsFrom [] s.toList = wordsFrom [] (trimChars s.toList) := by
    conv_lhs => rw [hs]
    rw [wordsFrom_blank ha, wordsFrom_append_blank hb]
  rw [words, words, hwords, trim, String.toList_ofList]

end Text

/-! ## Segments of a type and a name -/

/-- Two words of which the second one is a name have white space between them, and are the words of
the text. -/
theorem ShowsWords.words_eq {cs : List Char} {t n : String} (h : ShowsWords cs t n)
    (hn : isName n = true) : Text.words (String.ofList cs) = [t, n] := by
  obtain ⟨htypeWord, hnameWord⟩ := h.isWordText
  -- The spacing between them is not empty, since a name cannot go on after a word at once.
  have hspells : SpellsPair cs t n := by
    obtain ⟨type, name, hts, htype, -, rfl, rfl⟩ := h
    exact spellsPair_of_significant hts htype hn
  obtain ⟨a, b, c, ha, hb, hbne, hc, rfl⟩ := hspells
  have hwords : Text.wordsFrom [] (a ++ t.toList ++ b ++ n.toList ++ c) = [t.toList, n.toList] :=
    calc Text.wordsFrom [] (a ++ t.toList ++ b ++ n.toList ++ c)
        = Text.wordsFrom [] (a ++ (t.toList ++ (b ++ n.toList))) := by
          rw [Text.wordsFrom_append_blank hc.isBlankText]
          simp only [List.append_assoc]
      _ = t.toList :: Text.wordsFrom [] n.toList := by
          rw [Text.wordsFrom_blank ha.isBlankText, Text.wordsFrom_word_append htypeWord.ne_nil
            htypeWord.not_isBlank hb.isBlankText hbne]
      _ = [t.toList, n.toList] := by
          rw [Text.wordsFrom_word hnameWord.ne_nil hnameWord.not_isBlank]
  rw [Text.words, String.toList_ofList, hwords, List.map_cons, List.map_singleton,
    String.ofList_toList, String.ofList_toList]

/-! ## The leaves that are kept -/

/-- The uses of leaf types that the first round keeps, in order. -/
def keptLeaves (decls : List String) : List LeafUse :=
  (Progress.readAll false (decls.map Declaration.ofString)).leaves

/-- The leaves that the first round keeps are those of each declaration. -/
theorem keptLeaves_eq (decls : List String) :
    keptLeaves decls = (readings decls).flatMap Reading.leaves :=
  (Progress.adds_readAll decls).2.leaves

/-- The use of a leaf type in segment `j` of declaration `i`: the text `cs` of the segment is this
type and the name `n`, which are legal and of which the name is new, and the use has the place, the
column of the type, the text without white space at its ends and the type. -/
structure LeafUse.IsUseIn (l : LeafUse) (decls : List String) (i j : Nat) (d : String)
    (cs : List Char) (n : String) : Prop where
  /-- The declaration. -/
  decl : decls[i]? = some d
  /-- The segment in it. -/
  segment : (segmentTexts d)[j]? = some cs
  /-- The segment is the type and the name. -/
  words : ShowsWords cs l.type n
  /-- The type is legal apart from the variants. -/
  legal : IsLegalType [] l.type
  /-- The type is not that of nodes. -/
  leaf : l.type ≠ nodeName
  /-- The name is legal in the declaration. -/
  name : IsFieldName d n
  /-- No segment before it that passes alone has the name. -/
  fresh : ¬∃ k < j, ∃ cs', (segmentTexts d)[k]? = some cs' ∧ PassesAlone d cs' n
  /-- The place of the use. -/
  place : l.place = .field i j
  /-- The column of the type. -/
  column : l.column = columnAfter (textBefore d j ++ cs.takeWhile Text.isSpacing)
  /-- The text that is kept. -/
  text : l.text = Text.trim (String.ofList cs)

/-- What is kept of a segment that stands after `before` and is read when `names` are taken. -/
theorem exists_leaf_iff {d : String} {place : Place} {names : List String} {separator : Token}
    {before cs : List Char} {l : LeafUse} :
    (∃ r, Segment.read place ((Declaration.ofString d).name?.getD "") names
        ⟨separator, lexFrom (Position.start.advance before) cs⟩ = .ok r ∧ l ∈ r.leaf?) ↔
      ∃ n, ShowsWords cs l.type n ∧ IsLegalType [] l.type ∧ l.type ≠ nodeName ∧ IsFieldName d n ∧
        n ∉ names ∧ l.place = place ∧
        l.column = columnAfter (before ++ cs.takeWhile Text.isSpacing) ∧
        l.text = Text.trim (String.ofList cs) := by
  simp only [Segment.read_lexFrom_eq_ok_iff, showsWords_iff (Position.start.advance before)]
  constructor
  · -- A child leaves nothing, and of any other type what is kept is as the reading has it.
    rintro ⟨r, ⟨type, name, hts, htype, hname, hlegal, hfield, hnew, rfl⟩, hl⟩
    dsimp only at hl
    split_ifs at hl with hnode
    · simp at hl
    · obtain rfl := Option.some.inj hl
      exact ⟨name.text, ⟨type, name, hts, htype, hname, rfl, rfl⟩, hlegal, hnode, hfield, hnew, rfl,
        column_eq_of_significant hts, rfl⟩
  · rintro ⟨n, ⟨type, name, hts, htype, hname, htypeText, rfl⟩, hlegal, hnode, hfield, hnew, rfl,
      hcolumn, hl⟩
    rw [← htypeText] at hlegal hnode
    refine ⟨_, ⟨type, name, hts, htype, hname, hlegal, hfield, hnew, rfl⟩, ?_⟩
    dsimp only
    rw [if_neg hnode, column_eq_of_significant hts, ← hcolumn, ← hl, htypeText]
    rfl

/-- The leaves that the first round keeps of a declaration are those of its segments. -/
theorem mem_leaves_iff {decls : List String} {i : Nat} {d : String} (hd : decls[i]? = some d)
    {l : LeafUse} : l ∈ ((Declaration.ofString d).read (headerNames decls) i).leaves ↔
      ∃ j cs n, l.IsUseIn decls i j d cs n := by
  by_cases hcolon : ':' ∈ d.toList
  · unfold Declaration.read
    rw [parts?_of_colon hcolon]
    dsimp only
    simp only [List.mem_filterMap, readingOf?_eq_some_iff]
    constructor
    · rintro ⟨x, ⟨r, hr, rfl⟩, hl⟩
      obtain ⟨j, hj⟩ := List.mem_iff_getElem?.1 hr
      obtain ⟨cs, hcs⟩ := exists_piece_of_readSegments hj
      obtain ⟨names, separator, hnames, -, hread⟩ := exists_readSegments_textBefore i hcs
      rw [hread] at hj
      obtain ⟨n, hwords, hlegal, hnode, hname, hnew, hplace, hcolumn, htext⟩ :=
        exists_leaf_iff.1 ⟨x, Option.some.inj hj, hl⟩
      have hfresh := (hnames n).not.1 hnew
      exact ⟨j, cs, n, hd, hcs, hwords, hlegal, hnode, hname, hfresh, hplace, hcolumn, htext⟩
    · rintro ⟨j, cs, n, huse⟩
      obtain ⟨names, separator, hnames, -, hread⟩ := exists_readSegments_textBefore i huse.segment
      obtain ⟨x, hx, hl⟩ := exists_leaf_iff.2 ⟨n, huse.words, huse.legal, huse.leaf, huse.name,
        (hnames n).not.2 huse.fresh, huse.place, huse.column, huse.text⟩
      exact ⟨x, ⟨_, List.mem_of_getElem? hread, hx⟩, hl⟩
  · -- Without a colon nothing is read.
    unfold Declaration.read
    rw [Declaration.ofString_of_not_mem hcolon]
    refine iff_of_false List.not_mem_nil ?_
    rintro ⟨j, cs, n, huse⟩
    exact hcolon (colon_of_segmentTexts huse.segment)

/-- The leaves that the first round keeps are those of all segments. -/
theorem mem_keptLeaves_iff {decls : List String} {l : LeafUse} :
    l ∈ keptLeaves decls ↔ ∃ i j d cs n, l.IsUseIn decls i j d cs n := by
  rw [keptLeaves_eq, readings]
  simp only [List.mem_flatMap, List.mem_mapIdx]
  constructor
  · rintro ⟨r, ⟨i, hi, rfl⟩, hl⟩
    obtain ⟨j, cs, n, huse⟩ := (mem_leaves_iff (List.getElem?_eq_getElem hi)).1 hl
    exact ⟨i, j, _, cs, n, huse⟩
  · rintro ⟨i, j, d, cs, n, huse⟩
    obtain ⟨hi, rfl⟩ := List.getElem?_eq_some_iff.1 huse.decl
    exact ⟨_, ⟨i, hi, rfl⟩, (mem_leaves_iff huse.decl).2 ⟨j, cs, n, huse⟩⟩

/-- The text that is kept with a leaf has two words, the type and the name. -/
theorem LeafUse.IsUseIn.words_text {l : LeafUse} {decls : List String} {i j : Nat} {d : String}
    {cs : List Char} {n : String} (h : l.IsUseIn decls i j d cs n) :
    Text.words l.text = [l.type, n] := by
  rw [h.text, Text.words_trim, h.words.words_eq h.name.1]

/-! ## The second round, reading types again -/

/-- What the second round reports of leaves when it reads the type of each one again, as the first
word of its text. With `failFast` the round is over with the first fault. There is no answer when it
comes to a text without words. -/
def rereadFaults? (isVariant : String → Bool) (failFast : Bool) :
    List LeafUse → Option (List Fault)
  | [] => some []
  | l :: rest =>
    match Text.words l.text with
    | [] => none
    | type :: _ =>
      match LeafUse.fault? isVariant { l with type := type } with
      | none => rereadFaults? isVariant failFast rest
      | some f =>
        if failFast then some [f] else (rereadFaults? isVariant failFast rest).map (f :: ·)

/-- The leaves whose texts begin with their types have the same faults when these are read again. -/
theorem rereadFaults?_eq {leaves : List LeafUse}
    (h : ∀ l ∈ leaves, (Text.words l.text).head? = some l.type) (isVariant : String → Bool)
    (failFast : Bool) :
    rereadFaults? isVariant failFast leaves =
      some (if failFast then (leaves.filterMap (·.fault? isVariant)).head?.toList
        else leaves.filterMap (·.fault? isVariant)) := by
  induction leaves with
  | nil => cases failFast <;> rfl
  | cons l leaves ih =>
    obtain ⟨hl, hleaves⟩ := List.forall_mem_cons.1 h
    obtain ⟨others, hwords⟩ := List.head?_eq_some_iff.1 hl
    -- With the type that is read again the leaf is what it was, and so is its fault.
    have hsame : ({ l with type := l.type } : LeafUse) = l := rfl
    rw [rereadFaults?, hwords]
    dsimp only
    rw [hsame, List.filterMap_cons]
    cases hf : l.fault? isVariant with
    | none => exact ih hleaves
    | some f =>
      dsimp only
      rw [ih hleaves]
      cases failFast <;> rfl

/-- The types of leaves can be read again from what is kept of them. The first round keeps exactly
the uses of leaf types in segments that pass, and the words of the text of each one, as white space
of any kind divides it, are the type that was checked and the name. So a second round that reads
each type again always finds one, and it reports what the faults of the leaves are. -/
theorem leaf_types_reread (decls : List String) :
    (∀ l ∈ keptLeaves decls, ∃ i j d cs n, l.IsUseIn decls i j d cs n ∧
        Text.words l.text = [l.type, n]) ∧
      (∀ l i j d cs n, l.IsUseIn decls i j d cs n → l ∈ keptLeaves decls) ∧
      ∀ isVariant failFast, rereadFaults? isVariant failFast (keptLeaves decls) =
        some (if failFast then ((keptLeaves decls).filterMap (·.fault? isVariant)).head?.toList
          else (keptLeaves decls).filterMap (·.fault? isVariant)) := by
  have hwords : ∀ l ∈ keptLeaves decls, ∃ i j d cs n, l.IsUseIn decls i j d cs n ∧
      Text.words l.text = [l.type, n] := by
    intro l hl
    obtain ⟨i, j, d, cs, n, huse⟩ := mem_keptLeaves_iff.1 hl
    exact ⟨i, j, d, cs, n, huse, huse.words_text⟩
  refine ⟨hwords, fun l i j d cs n huse => mem_keptLeaves_iff.2 ⟨i, j, d, cs, n, huse⟩, ?_⟩
  refine rereadFaults?_eq fun l hl => ?_
  obtain ⟨i, j, d, cs, n, -, htext⟩ := hwords l hl
  rw [htext]
  rfl

/-- A type of two parts with a star, between line breaks and before a form feed. The segments beside
it are a child, two words after a no-break space and two words without spacing between them, of
which none is kept, and the type of the other declaration names a variant. -/
theorem leaf_types_reread_breaks :
    let decls := ["A : Expr e,\n\t*ü.Té\x0c\r\n ñ ,\u00a0B b, B*c", "B :B b"]
    (keptLeaves decls).map (fun l => (l.place, l.column, l.type)) =
        [(.field 0 1, 2, "*ü.Té"), (.field 1 0, 4, "B")] ∧
      (∀ l ∈ keptLeaves decls, (Text.words l.text).head? = some l.type) ∧
      (∃ d cs n l, LeafUse.IsUseIn l decls 0 1 d cs n ∧ Text.words l.text = ["*ü.Té", "ñ"]) ∧
      rereadFaults? (declares decls) false (keptLeaves decls) =
        some [⟨.invalidName, .field 1 0, some 4, "B b",
          "type \"B\" refers to generated variant B; use Expr for child expressions"⟩] := by
  intro decls
  obtain ⟨hkept, -, hreread⟩ := leaf_types_reread decls
  have hleaves : keptLeaves decls =
      [⟨.field 0 1, 2, "*ü.Té\x0c\r\n ñ", "*ü.Té"⟩, ⟨.field 1 0, 4, "B b", "B"⟩] := by
    decide +kernel
  refine ⟨by rw [hleaves]; rfl, fun l hl => ?_, ?_, ?_⟩
  · obtain ⟨i, j, d, cs, n, -, hwords⟩ := hkept l hl
    rw [hwords]
    rfl
  · obtain ⟨i, j, d, cs, n, huse, hwords⟩ := hkept _ (hleaves ▸ List.mem_cons_self)
    obtain ⟨rfl, rfl⟩ : i = 0 ∧ j = 1 := by simpa using huse.place.symm
    exact ⟨d, cs, n, _, huse, by decide +kernel⟩
  · rw [hreread, hleaves]
    decide +kernel

end NodeFamily
