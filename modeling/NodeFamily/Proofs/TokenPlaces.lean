import NodeFamily.Proofs.LexicalRules
import NodeFamily.Proofs.Segments

/-!
# Where the tokens of a declaration lie

The tokens that show cover a declaration without loss (`lex_covers`): each is the piece of the text
at its offset, one follows another, and nothing but spacing lies outside of them. Offsets count
octets, while the lexer goes by characters; `IsSlice` says what the octets between two offsets are.
That the tokens follow one another is an induction on them: the first one stands after some spacing,
and what is left is laid out in the same way after a longer text (`Laid`). The segments of a
declaration are slices too, from one separator to the next (`Segment.areSlices_segmentsOf`).
-/

namespace NodeFamily

open Token (continuesName opensName lexFrom significant separatorKind concat)

/-! ## Offsets -/

namespace Text

/-- The number of octets of a text. -/
def size (cs : List Char) : Nat := (String.ofList cs).utf8ByteSize

/-- The octets of a text and of what follows it. -/
theorem size_append (xs ys : List Char) : size (xs ++ ys) = size xs + size ys := by
  rw [size, String.ofList_append, String.utf8ByteSize_append, size, size]

/-- The octets of a single character. -/
theorem size_singleton (c : Char) : size [c] = c.utf8Size := by
  rw [size, ← String.singleton_eq_ofList, String.utf8ByteSize_singleton]

/-- Only the empty text has no octets. -/
theorem size_eq_zero_iff {cs : List Char} : size cs = 0 ↔ cs = [] := by
  rw [size, String.utf8ByteSize_eq_zero_iff, ← String.toList_inj, String.toList_ofList]
  rfl

/-- The octets of a string are those of its characters. -/
theorem size_toList (s : String) : size s.toList = s.utf8ByteSize := by
  rw [size, String.ofList_toList]

end Text

open Text (size size_append)

/-- The offset after a text is that many octets further on. -/
theorem Position.offset_advance (p : Position) (cs : List Char) :
    (p.advance cs).offset = p.offset + size cs := by
  induction cs generalizing p with
  | nil => rfl
  | cons c cs ih =>
    have hsize : size (c :: cs) = c.utf8Size + size cs := by
      rw [← List.singleton_append, size_append, Text.size_singleton]
    rw [Position.advance_cons, ih, hsize, ← Nat.add_assoc]
    rfl

/-- The offset after a text that begins the declaration. -/
theorem Position.offset_advance_start (cs : List Char) :
    (Position.start.advance cs).offset = size cs := by
  rw [Position.offset_advance, Position.start, Nat.zero_add]

/-- The offset after a token. -/
def Token.stop (t : Token) : Nat := t.position.offset + t.text.utf8ByteSize

/-- What lies in a string between two offsets, of which the first comes before the second. -/
structure IsSlice (s : String) (a b : Nat) (piece : String) : Prop where
  /-- The offsets come in order. -/
  le : a ≤ b
  /-- They lie in the string. -/
  bound : b ≤ s.utf8ByteSize
  /-- The octets between them. -/
  octets : s.toByteArray.extract a b = piece.toByteArray

/-- A part of a text lies between the offsets after what is before it and after itself. -/
theorem isSlice_of_toList {s : String} {before w after : List Char}
    (h : s.toList = before ++ (w ++ after)) :
    IsSlice s (size before) (size (before ++ w)) (String.ofList w) := by
  obtain rfl : s = String.ofList before ++ (String.ofList w ++ String.ofList after) := by
    rw [← String.ofList_append, ← String.ofList_append, ← h, String.ofList_toList]
  refine ⟨?_, ?_, ?_⟩
  · rw [size_append]
    exact Nat.le_add_right _ _
  · rw [size_append, String.utf8ByteSize_append, String.utf8ByteSize_append, ← Nat.add_assoc]
    exact Nat.le_add_right _ _
  · rw [size_append, String.toByteArray_append, String.toByteArray_append]
    have hshift := ByteArray.extract_append_size_add (a := (String.ofList before).toByteArray)
      (b := (String.ofList w).toByteArray ++ (String.ofList after).toByteArray) (i := 0)
      (j := size w)
    exact hshift.trans (ByteArray.extract_append_eq_left rfl)

/-- The rest of a text lies between the offset after what is before it and the end. -/
theorem isSlice_to_end {s : String} {before w : List Char} (h : s.toList = before ++ w) :
    IsSlice s (size before) s.utf8ByteSize (String.ofList w) := by
  rw [← Text.size_toList, h]
  exact isSlice_of_toList (by rw [h, List.append_nil])

/-! ## Layouts -/

/-- A word begins with a star or with a character that opens names. -/
theorem IsWordText.exists_head? {w : List Char} (h : IsWordText w) :
    ∃ c, w.head? = some c ∧ (c = '*' ∨ opensName c = true) := by
  obtain ⟨star, _, tail, rfl, hstar, ⟨c, run, rfl, hc, -⟩, -⟩ := h
  rcases hstar with rfl | rfl
  · exact ⟨c, rfl, .inr hc⟩
  · exact ⟨'*', rfl, .inl rfl⟩

/-- Tokens that lie in a text one after another, with spacing before, between and after them, when
the text begins after `before`. No word is followed by a character that would continue it. -/
inductive Laid : List Char → List Char → List Token → Prop
  /-- Nothing but spacing is left. -/
  | blank {before cs : List Char} (hgap : IsGap cs) : Laid before cs []
  /-- A token stands after some spacing. -/
  | token {before g w rest : List Char} {t : Token} {ts : List Token} (hgap : IsGap g)
      (htext : t.text = String.ofList w)
      (hposition : t.position = Position.start.advance (before ++ g)) (hallowed : t.kind.Matches w)
      (hshows : t.kind ≠ .spacing)
      (hends : t.kind = .word → ∀ c ∈ rest.head?, continuesName c = false)
      (hrest : Laid (before ++ g ++ w) rest ts) : Laid before (g ++ (w ++ rest)) (t :: ts)

/-- The offset after a token is the size of the text up to there. -/
theorem Token.stop_eq {before g w : List Char} {t : Token} (htext : t.text = String.ofList w)
    (hposition : t.position = Position.start.advance (before ++ g)) :
    t.stop = size (before ++ g ++ w) := by
  rw [Token.stop, hposition, Position.offset_advance_start, htext, size_append _ w]
  rfl

/-- The tokens that show lie in the text in this way. -/
theorem laid_significant {before cs : List Char} {ts : List Token}
    (h : significant (lexFrom (Position.start.advance before) cs) = ts) : Laid before cs ts := by
  -- The induction is on the tokens, since the spacing between them leaves none.
  induction ts generalizing before cs with
  | nil => exact .blank (Token.significant_lexFrom_eq_nil_iff.1 h)
  | cons t ts ih =>
    have hmem : t ∈ significant (lexFrom (Position.start.advance before) cs) :=
      h ▸ List.mem_cons_self
    obtain ⟨hlex, hshows⟩ := List.mem_filter.1 hmem
    have hallowed := matches_of_mem_lexFrom hlex
    obtain ⟨g, w, rest, rfl, hg, hne, htext, hposition, hts, hword⟩ :=
      Token.exists_of_significant_lexFrom_eq_cons h
    rw [htext, String.toList_ofList] at hallowed
    rw [← Position.advance_append] at hposition hts
    refine .token hg htext hposition hallowed (of_decide_eq_true hshows) (fun hkind c hc => ?_)
      (ih (by rw [hts, List.append_assoc]))
    have hextent := hword hkind
    have hnonzero : Token.wordExtent (w ++ rest) ≠ 0 := by
      rw [hextent]
      exact fun hzero => hne (List.length_eq_zero_iff.1 hzero)
    exact Token.not_continuesName_after_word hnonzero (by rwa [hextent, List.drop_left])

namespace Laid

variable {before cs : List Char} {ts : List Token}

/-- Each token is the piece of the text at its offset. -/
theorem isSlice {s : String} (h : Laid before cs ts) (hs : s.toList = before ++ cs) :
    ∀ t ∈ ts, IsSlice s t.position.offset t.stop t.text := by
  induction h with
  | blank => simp
  | @token before g w rest t ts hgap htext hposition _ _ _ _ ih =>
    have hs' : s.toList = before ++ g ++ (w ++ rest) := by rw [hs, List.append_assoc]
    refine List.forall_mem_cons.2 ⟨?_, ih (by rw [hs', List.append_assoc _ w])⟩
    rw [Token.stop_eq htext hposition, hposition, Position.offset_advance_start, htext]
    exact isSlice_of_toList hs'

/-- No token stands before the text. -/
theorem size_le (h : Laid before cs ts) : ∀ t ∈ ts, size before ≤ t.position.offset := by
  induction h with
  | blank => simp
  | @token before g w rest t ts _ _ hposition _ _ _ _ ih =>
    refine List.forall_mem_cons.2 ⟨?_, fun u hu => ?_⟩
    · rw [hposition, Position.offset_advance_start, size_append]
      exact Nat.le_add_right _ _
    · have hle := ih u hu
      rw [size_append, size_append] at hle
      omega

/-- The tokens come one after another, and none goes into another. -/
theorem pairwise (h : Laid before cs ts) :
    ts.Pairwise fun t u => t.position.offset < u.position.offset ∧ t.stop ≤ u.position.offset := by
  induction h with
  | blank => exact .nil
  | @token before g w rest t ts _ htext hposition hallowed _ _ hrest ih =>
    refine List.pairwise_cons.2 ⟨fun u hu => ?_, ih⟩
    have hle := hrest.size_le u hu
    have hpos : 0 < size w := Nat.pos_of_ne_zero fun hzero =>
      hallowed.ne_nil (Text.size_eq_zero_iff.1 hzero)
    rw [Token.stop_eq htext hposition, hposition, Position.offset_advance_start]
    rw [size_append _ w] at hle ⊢
    omega

/-- What lies before, between and after the tokens is spacing. -/
theorem gaps {s : String} (h : Laid before cs ts) (hs : s.toList = before ++ cs) :
    ∀ ends ∈ (size before :: ts.map Token.stop).zip
      (ts.map (·.position.offset) ++ [s.utf8ByteSize]),
      ∃ g, IsGap g ∧ IsSlice s ends.1 ends.2 (String.ofList g) := by
  induction h with
  | @blank before cs hgap =>
    simpa using ⟨cs, hgap, isSlice_to_end hs⟩
  | @token before g w rest t ts hgap htext hposition _ _ _ _ ih =>
    rw [List.map_cons, List.map_cons, List.cons_append, List.zip_cons_cons, List.forall_mem_cons,
      hposition, Position.offset_advance_start, Token.stop_eq htext hposition]
    refine ⟨⟨g, hgap, isSlice_of_toList hs⟩, ih ?_⟩
    rw [hs, List.append_assoc, List.append_assoc]

/-- A word right after another one begins with a star. -/
theorem glued (h : Laid before cs ts) :
    ts.IsChain fun t u => t.stop = u.position.offset → t.kind = .word → u.kind = .word →
      u.text.toList.head? = some '*' := by
  induction h with
  | blank => exact .nil
  | @token before g w rest t ts _ htext hposition _ _ hends hrest ih =>
    cases hrest with
    | blank => exact .singleton t
    | @token _ g' w' rest' u ts' _ htext' hposition' hallowed' _ _ _ =>
      refine .cons_cons (fun hglued hword hword' => ?_) ih
      -- No spacing stands between the two, so that the second one follows the first at once.
      obtain rfl : g' = [] := by
        rw [Token.stop_eq htext hposition, hposition', Position.offset_advance_start,
          size_append _ g'] at hglued
        exact Text.size_eq_zero_iff.1 (by omega)
      rw [hword'] at hallowed'
      rw [htext', String.toList_ofList]
      obtain ⟨c, hc, hstar | hopens⟩ := hallowed'.exists_head?
      · rw [hc, hstar]
      · have hnot : continuesName c = false :=
          hends hword c (by rw [List.nil_append, List.head?_append, hc]; rfl)
        rw [continuesName_of_opensName hopens] at hnot
        exact absurd hnot (by decide)

end Laid

/-! ## Segments -/

namespace Segment

/-- The segments of a string are slices of it: each lies between the separator before it and the one
after it, or the end. -/
def AreSlices (s : String) (segments : List Segment) : Prop :=
  ∀ (j : Nat) (segment : Segment), segments[j]? = some segment →
    IsSlice s segment.separator.stop
      ((segments[j + 1]?.map (·.separator.position.offset)).getD s.utf8ByteSize)
      (concat segment.tokens)

/-- The pieces of a text between its commas are slices, when the first one comes after `before` and
after the separator there. -/
theorem areSlices_segmentsOf {s : String} {separator : Token} {before : List Char}
    {pieces : List (List Char)} (hseparator : separator.stop = size before)
    (hs : s.toList = before ++ [','].intercalate pieces) :
    AreSlices s (segmentsOf separator (Position.start.advance before) pieces) := by
  -- Each segment ends where the next one has its separator, so two pieces are looked at at once.
  induction pieces generalizing separator before with
  | nil => simp [AreSlices, segmentsOf]
  | cons piece pieces ih =>
    cases pieces with
    | nil =>
      -- The last segment goes to the end of the string.
      rintro (_ | j) segment hj
      · obtain rfl := Option.some.inj hj
        rw [List.intercalate_singleton] at hs
        rw [Token.concat_lexFrom, hseparator]
        exact isSlice_to_end hs
      · simp [segmentsOf] at hj
    | cons next pieces =>
      rw [List.intercalate_cons_cons, List.append_assoc] at hs
      have hcomma : Token.stop ⟨.comma, ",", (Position.start.advance before).advance piece⟩ =
          size (before ++ (piece ++ [','])) := by
        rw [Token.stop, ← Position.advance_append, Position.offset_advance_start,
          ← List.append_assoc, size_append _ [',']]
        rfl
      have hrest := ih hcomma (by rw [hs, List.append_assoc, List.append_assoc])
      rintro (_ | j) segment hj
      · obtain rfl := Option.some.inj hj
        have hslice := isSlice_of_toList hs
        rw [← hseparator, ← Position.offset_advance_start, Position.advance_append] at hslice
        rwa [Token.concat_lexFrom]
      · rw [Position.advance_append] at hrest
        exact hrest j segment hj

end Segment

/-! ## Declarations -/

/-- Tokens cover a string without loss. -/
structure CoversString (s : String) (ts : List Token) : Prop where
  /-- Each token is a piece of the string that the rule for its sort allows, and is not empty. -/
  pieces : ∀ t ∈ ts, IsSlice s t.position.offset t.stop t.text ∧ t.text ≠ "" ∧
    t.kind.Matches t.text.toList ∧ t.kind ≠ .spacing
  /-- They come one after another, and none goes into another. -/
  ordered : ts.Pairwise fun t u => t.position.offset < u.position.offset ∧
    t.stop ≤ u.position.offset
  /-- What lies before, between and after them is spacing. -/
  gaps : ∀ ends ∈ (0 :: ts.map Token.stop).zip (ts.map (·.position.offset) ++ [s.utf8ByteSize]),
    ∃ g, IsGap g ∧ IsSlice s ends.1 ends.2 (String.ofList g)
  /-- Each colon and each comma is a token of its own. -/
  separators : ∀ (before : List Char) (sep : Char) (after : List Char), sep = ':' ∨ sep = ',' →
    s.toList = before ++ sep :: after → ∃ t ∈ ts, t.kind = separatorKind sep ∧
      t.text = String.singleton sep ∧ t.position.offset = size before
  /-- A word right after another one begins with a star. -/
  glued : ts.IsChain fun t u => t.stop = u.position.offset → t.kind = .word → u.kind = .word →
    u.text.toList.head? = some '*'

/-- Each colon and each comma of a string is a token that shows. -/
theorem exists_separator {s : String} {before after : List Char} {sep : Char}
    (hsep : sep = ':' ∨ sep = ',') (hs : s.toList = before ++ sep :: after) :
    ∃ t ∈ significant (Token.lex s), t.kind = separatorKind sep ∧
      t.text = String.singleton sep ∧ t.position.offset = size before := by
  refine ⟨⟨separatorKind sep, String.ofList [sep], Position.start.advance before⟩, ?_, rfl,
    String.singleton_eq_ofList.symm, Position.offset_advance_start before⟩
  rw [Token.lex, hs, Token.lexFrom_append_separator hsep]
  refine List.mem_filter.2 ⟨List.mem_append_right _ List.mem_cons_self, ?_⟩
  rcases hsep with rfl | rfl <;> rfl

/-- The tokens that show cover a string without loss. -/
theorem lex_covers (s : String) : CoversString s (significant (Token.lex s)) := by
  have hlaid : Laid [] s.toList (significant (Token.lex s)) := laid_significant rfl
  have hs : s.toList = [] ++ s.toList := rfl
  refine ⟨fun t ht => ⟨hlaid.isSlice hs t ht, ?_⟩, hlaid.pairwise, hlaid.gaps hs,
    fun _ _ _ => exists_separator, hlaid.glued⟩
  obtain ⟨hlex, hshows⟩ := List.mem_filter.1 ht
  have hallowed := matches_of_mem_lexFrom hlex
  refine ⟨fun hempty => hallowed.ne_nil ?_, hallowed, of_decide_eq_true hshows⟩
  rw [hempty]
  rfl

/-- The segments of a declaration are slices of it. -/
theorem areSlices_of_parts? {s : String} {head : List Token} {colon : Token}
    {segments : List Segment} (h : (Declaration.ofString s).parts? = some (head, colon, segments)) :
    Segment.AreSlices s segments := by
  by_cases hcolon : ':' ∈ s.toList
  · obtain ⟨before, rest, hs, hbefore⟩ := List.eq_append_cons_of_mem hcolon
    rw [Declaration.ofString_of_colon hs hbefore] at h
    obtain ⟨rfl, rfl, rfl⟩ := h
    refine Segment.areSlices_segmentsOf ?_ ?_
    · rw [Token.stop, Declaration.colonAfter, Position.offset_advance_start, size_append]
      rfl
    · rw [Text.intercalate_cutAt, hs, List.append_assoc, List.singleton_append]
  · rw [Declaration.ofString_of_not_mem hcolon] at h
    exact absurd h (by simp)

/-- Lexing loses nothing and never fails. For every string there is one list of tokens that the
rules lead to, and it is that of the lexer; without those of spacing, the tokens cover the string
without loss. When it is cut at its colon and commas, each segment is the slice from the end of the
separator before it to the beginning of the next one, or to the end of the string, and these come in
order. -/
theorem lex_lossless (s : String) :
    (∀ ts, Scans .start s.toList ts ↔ ts = Token.lex s) ∧
      CoversString s (significant (Token.lex s)) ∧
      ∀ head colon segments, (Declaration.ofString s).parts? = some (head, colon, segments) →
        Segment.AreSlices s segments :=
  ⟨fun _ => scans_iff, lex_covers s, fun _ _ _ => areSlices_of_parts?⟩

/-- Two words with nothing between them, letters of two octets, a no-break space and a segment
without text. -/
theorem lex_lossless_glued :
    let s := "a*b :\té.ü\u00a0, "
    let ts := significant (Token.lex s)
    ts.map (fun t => (t.kind, t.text, t.position.offset, t.stop)) =
      [(.word, "a", 0, 1), (.word, "*b", 1, 3), (.colon, ":", 4, 5), (.word, "é.ü", 6, 11),
        (.other, "\u00a0", 11, 13), (.comma, ",", 13, 14)] ∧
      Scans .start s.toList (Token.lex s) ∧ CoversString s ts ∧
      ∃ head colon segments, (Declaration.ofString s).parts? = some (head, colon, segments) ∧
        segments.map (concat ·.tokens) = ["\té.ü\u00a0", " "] ∧ Segment.AreSlices s segments := by
  intro s ts
  obtain ⟨hscans, hcovers, hslices⟩ := lex_lossless s
  have htexts : (Declaration.ofString s).parts?.map (·.2.2.map (concat ·.tokens)) =
      some ["\té.ü\u00a0", " "] := by decide +kernel
  obtain ⟨⟨head, colon, segments⟩, hparts, htexts⟩ := Option.map_eq_some_iff.1 htexts
  exact ⟨by decide +kernel, (hscans _).2 rfl, hcovers, head, colon, segments, hparts, htexts,
    hslices head colon segments hparts⟩

end NodeFamily
