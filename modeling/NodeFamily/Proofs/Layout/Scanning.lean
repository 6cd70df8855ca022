import NodeFamily.Layout.Token
import NodeFamily.Proofs.Layout.Places
import NodeFamily.Proofs.Layout.Quoting

/-!
# Cutting a text that is put together from pieces

A `Piece` is a stretch of source text that the cutting takes in one step: a word, an operator, a
quoted text, a blank, a line break or a comment. When each piece is well formed and nothing sticks
to its neighbour (`Piece.fits`), the lexical elements of a text can be told from its pieces alone:
they are `lexemesAfter`, in which a line break turns into a semicolon where the last element can end
a statement. `tokens_ofChars?` carries this over to the tokens that the grammar sees.

The proof is by induction on the pieces: `run_piece` says what one step of the cutting does, and
`run_pieces` follows a whole run.
-/

namespace NodeFamily.Layout

/-! ## Pieces -/

/-- A stretch of source text that is taken in one step. -/
inductive Piece
  /-- An identifier. -/
  | name (text : String)
  /-- A keyword. -/
  | keyword (text : String)
  /-- An operator. -/
  | sign (text : String)
  /-- A text between double quotes. -/
  | quoted (text : String)
  /-- A space or a tab. -/
  | blank (c : Char)
  /-- The end of a line. -/
  | lineBreak
  /-- A comment to the end of its line, less its two slashes and the space after them. -/
  | comment (text : String)

/-- The signs that no longer operator begins with. -/
def closedSigns : List String := ["(", ")", "[", "]", "\x7b", "\x7d", ","]

/-- The signs that some longer operator begins with. -/
def openSigns : List String := ["*", "&", "=", ".", ":"]

namespace Piece

/-- The characters of a piece. -/
def chars : Piece → List Char
  | name t | keyword t | sign t => t.toList
  | quoted t => (Text.quote t).toList
  | blank c => [c]
  | lineBreak => ['\n']
  | comment t => '/' :: '/' :: ' ' :: t.toList

/-- What the text of a piece has to be. -/
def IsSound : Piece → Prop
  | name t => isIdentifier t = true
  | keyword t => t ∈ keywords
  | sign t => t ∈ closedSigns ∨ t ∈ openSigns
  | quoted _ | lineBreak => True
  | blank c => c = ' ' ∨ c = '\t'
  | comment t => ∀ c ∈ t.toList, IsPlainChar c

/-- Whether a piece can stand before the next one, if there is one. Two words would become one, an
operator might become a longer one, and a comment takes all of its line. -/
def standsBefore : Piece → Option Piece → Bool
  | name _, some (name _) | name _, some (keyword _) => false
  | keyword _, some (name _) | keyword _, some (keyword _) => false
  | sign t, q? =>
    closedSigns.contains t || match q? with
      | some (name _) | some (keyword _) | some (blank _) => true
      | _ => false
  | comment _, q? => match q? with
    | some lineBreak => true
    | _ => false
  | _, _ => true

/-- Whether each piece can stand before the next one. -/
def fits : List Piece → Bool
  | [] => true
  | p :: ps => p.standsBefore ps.head? && fits ps

/-- The elements that a piece adds, after an element that can end a statement or not. -/
def lexemes (ready : Bool) : Piece → List Lexeme
  | name t => [.name t]
  | keyword t | sign t => [.sign t]
  | quoted t => [.literal .text (Text.quote t)]
  | lineBreak => if ready then [.semicolon false] else []
  | blank _ | comment _ => []

/-- Whether a line break counts as a semicolon after a piece. -/
def readyAfter (ready : Bool) : Piece → Bool
  | name _ | quoted _ => true
  | keyword t | sign t => (Lexeme.sign t).endsStatement
  | lineBreak => false
  | blank _ | comment _ => ready

/-- The text that pieces make up. -/
def charsOf (ps : List Piece) : List Char := ps.flatMap chars

/-- The elements that a piece adds, each with its position, when it stands at an offset. -/
def items (offset : Nat) (ready : Bool) : Piece → List (Nat × Lexeme)
  | comment t =>
    [(offset + 1, .comment (String.ofList ((comment t).chars.filter (· != '\r'))))]
  | p => (p.lexemes ready).map (offset + 1, ·)

/-- The elements that pieces add one after the other, each with its position. -/
def itemsFrom (offset : Nat) (ready : Bool) : List Piece → List (Nat × Lexeme)
  | [] => []
  | p :: ps =>
    p.items offset ready ++ itemsFrom (offset + octets p.chars) (p.readyAfter ready) ps

end Piece

/-! ## Words -/

/-- The characters that open an identifier are told apart from those that do not. -/
theorem ne_of_opensIdentifier {c d : Char} (hc : opensIdentifier c = true)
    (hd : opensIdentifier d = false) : c ≠ d := by
  rintro rfl
  rw [hc] at hd
  exact absurd hd (by decide)

/-- The first character of a text with the shape of an identifier, and all of its characters. -/
theorem exists_of_hasIdentifierShape {cs : List Char} (h : hasIdentifierShape cs = true) :
    ∃ c rest, cs = c :: rest ∧ opensIdentifier c = true ∧
      ∀ d ∈ cs, continuesIdentifier d = true := by
  cases cs with
  | nil => exact absurd h (by decide)
  | cons c rest =>
    obtain ⟨hc, hrest⟩ := Bool.and_eq_true_iff.1 h
    refine ⟨c, rest, rfl, hc, List.forall_mem_cons.2 ⟨?_, List.all_eq_true.1 hrest⟩⟩
    simp [continuesIdentifier, hc]

/-- A word is read to its end, when nothing sticks to it. -/
theorem plainLexeme?_word {w : String} (h : hasIdentifierShape w.toList = true) {rest : List Char}
    (hrest : ∀ c ∈ rest.head?, continuesIdentifier c = false) :
    plainLexeme? (w.toList ++ rest) =
      some (if keywords.contains w then .sign w else .name w, w.toList, rest) := by
  obtain ⟨c, cs, hw, hopens, hall⟩ := exists_of_hasIdentifierShape h
  have hstop : rest.takeWhile continuesIdentifier = [] ∧
      rest.dropWhile continuesIdentifier = rest := by
    cases rest with
    | nil => exact ⟨rfl, rfl⟩
    | cons d rest =>
      have hd := hrest d rfl
      simp [hd]
  have htake : (w.toList ++ rest).takeWhile continuesIdentifier = w.toList := by
    rw [List.takeWhile_append_of_pos hall, hstop.1, List.append_nil]
  have hdrop : (w.toList ++ rest).dropWhile continuesIdentifier = rest := by
    rw [List.dropWhile_append_of_pos hall, hstop.2]
  rw [hw, List.cons_append] at htake hdrop ⊢
  unfold plainLexeme?
  dsimp only
  rw [if_pos hopens, htake, hdrop, ← hw, String.ofList_toList]

/-! ## Signs -/

/-- A sign that no longer operator begins with is read by itself, whatever follows it. -/
theorem plainLexeme?_closedSign {t : String} (h : t ∈ closedSigns) (rest : List Char) :
    plainLexeme? (t.toList ++ rest) = some (.sign t, t.toList, rest) := by
  have hmem : t = "(" ∨ t = ")" ∨ t = "[" ∨ t = "]" ∨ t = "\x7b" ∨ t = "\x7d" ∨ t = "," := by
    simpa [closedSigns] using h
  rcases hmem with rfl | rfl | rfl | rfl | rfl | rfl | rfl <;> rfl

/-- A character that continues no operator: a blank, or one that opens a word. -/
def BeginsApart (c : Char) : Prop := c = ' ' ∨ c = '\t' ∨ opensIdentifier c = true

/-- A blank or a character that opens a word is none of the others. -/
theorem BeginsApart.ne {c d : Char} (h : BeginsApart c) (hd : ¬BeginsApart d) : c ≠ d := by
  rintro rfl
  exact hd h

/-- A digit does not open a word. -/
theorem BeginsApart.not_isDigit {c : Char} (h : BeginsApart c) : c.isDigit = false := by
  have hall : ∀ n < 58, 48 ≤ n → ¬BeginsApart (Char.ofNat n) := by
    unfold BeginsApart
    decide
  by_contra hdigit
  simp only [Char.isDigit, Bool.not_eq_false, Bool.and_eq_true, decide_eq_true_eq,
    UInt32.le_iff_toNat_le] at hdigit
  have hcode := hall c.toNat (Nat.lt_succ_of_le hdigit.2) hdigit.1
  rw [Char.ofNat_toNat] at hcode
  exact hcode h

/-- A sign that some longer operator begins with is read by itself before a blank or a word. -/
theorem plainLexeme?_openSign {t : String} (h : t ∈ openSigns) {c : Char} (hc : BeginsApart c)
    (rest : List Char) :
    plainLexeme? (t.toList ++ c :: rest) = some (.sign t, t.toList, c :: rest) := by
  have hmem : t = "*" ∨ t = "&" ∨ t = "=" ∨ t = "." ∨ t = ":" := by
    simpa [openSigns] using h
  have hopens : ∀ d ∈ ['*', '&', '=', '.', ':'], opensIdentifier d = false :=
    List.all_iff_forall_prop.1 (by decide)
  have hothers : ∀ d ∈ ['=', '&', '^', '.'], ¬BeginsApart d := by
    unfold BeginsApart
    exact List.all_iff_forall_prop.1 (by decide)
  have hne : ∀ d ∈ ['=', '&', '^', '.'], d ≠ c := fun d hd => (hc.ne (hothers d hd)).symm
  -- These are the characters that make one of the signs longer.
  have heq := hne '=' (by simp)
  have hand := hne '&' (by simp)
  have hcaret := hne '^' (by simp)
  have hdot := hne '.' (by simp)
  rcases hmem with rfl | rfl | rfl | rfl | rfl
  all_goals
    simp [plainLexeme?, operators, hopens, hc.not_isDigit, heq, hand, hcaret, hdot]
    rfl

/-! ## One step of the cutting -/

/-- An element that starts with no white space and no slash takes one step. -/
theorem run_plain {cs raw rest : List Char} {l : Lexeme}
    (h : plainLexeme? cs = some (l, raw, rest))
    (hhead : ∀ c ∈ cs.head?, c ∉ ['\n', ' ', '\t', '\r', '/']) (size fuel : Nat) (s : Scan) :
    Scan.run size (fuel + 1) s cs = Scan.run size fuel (s.add l raw) rest := by
  cases cs with
  | nil => exact absurd h (by simp [plainLexeme?])
  | cons c cs =>
    have hc : c ≠ '\n' ∧ c ≠ ' ' ∧ c ≠ '\t' ∧ c ≠ '\r' ∧ c ≠ '/' := by
      simpa using hhead c rfl
    rw [Scan.run]
    simp [hc, h]

/-- A comment whose text starts with a space asks for no line count. -/
theorem addShift_space (s : Scan) (cs : List Char) (atStart : Bool) (next size : Nat) :
    s.addShift ('/' :: '/' :: ' ' :: cs) atStart next size = some s := by
  have hbody : ∀ body : List Char, body.head? = some ' ' →
      "line ".toList.isPrefixOf body = false := by
    intro body hbody
    cases body with
    | nil => rfl
    | cons c body =>
      obtain rfl := Option.some.inj hbody
      rfl
  have hhead : (if (' ' :: cs).getLast? == some '\r' then (' ' :: cs).dropLast
      else ' ' :: cs).head? = some ' ' := by
    split_ifs with hlast
    · cases cs with
      | nil => exact absurd hlast (by decide)
      | cons c cs => rfl
    · rfl
  refine if_pos ?_
  rw [Bool.not_eq_true', Bool.and_eq_false_iff]
  exact .inr (hbody _ hhead)

/-- What cutting a piece off changes: its elements are found, and the offset goes on behind it. -/
structure Piece.IsTaken (p : Piece) (s s' : Scan) : Prop where
  /-- The elements of the piece are found. -/
  found : s'.found = (p.items s.offset s.ready).reverse ++ s.found
  /-- The piece asks for no line count. -/
  shifts : s'.shifts = s.shifts
  /-- A line break counts as it does after the piece. -/
  ready : s'.ready = p.readyAfter s.ready
  /-- The offset is that after the piece. -/
  offset : s'.offset = s.offset + octets p.chars

/-- A comment takes one step. -/
theorem run_comment {t : String} (h : ∀ c ∈ t.toList, IsPlainChar c) (rest : List Char)
    (size fuel : Nat) (s : Scan) :
    ∃ s', Scan.run size (fuel + 1) s ((Piece.comment t).chars ++ '\n' :: rest) =
        Scan.run size fuel s' ('\n' :: rest) ∧ (Piece.comment t).IsTaken s s' := by
  have hplain : ∀ c ∈ '/' :: ' ' :: t.toList, (c != '\n') = true := by
    simpa using fun c hc => (h c hc).1
  have htake : ('/' :: ' ' :: (t.toList ++ '\n' :: rest)).takeWhile (· != '\n') =
      '/' :: ' ' :: t.toList := by
    rw [← List.cons_append, ← List.cons_append, List.takeWhile_append_of_pos hplain]
    simp
  have hdrop : ('/' :: ' ' :: (t.toList ++ '\n' :: rest)).dropWhile (· != '\n') =
      '\n' :: rest := by
    rw [← List.cons_append, ← List.cons_append, List.dropWhile_append_of_pos hplain]
    simp
  simp only [Piece.chars, List.cons_append]
  rw [Scan.run]
  simp only [htake, hdrop, Scan.addLineComment, addShift_space]
  exact ⟨_, rfl, rfl, rfl, rfl, rfl⟩

/-! ## Pieces one after the other -/

namespace Piece

/-- The first character of a well-formed sign continues no word and starts no comment. -/
theorem exists_of_sign {t : String} (h : (sign t).IsSound) :
    ∃ c rest, t.toList = c :: rest ∧ continuesIdentifier c = false ∧
      c ∉ ['\n', ' ', '\t', '\r', '/'] := by
  have hall : ∀ t ∈ closedSigns ++ openSigns, (t.toList.head?.any fun c =>
      !continuesIdentifier c && !(['\n', ' ', '\t', '\r', '/'].contains c)) = true := by decide
  obtain ⟨c, hc, hapart⟩ := (Option.any_eq_true _ _).1 (hall t (List.mem_append.2 h))
  obtain ⟨rest, hrest⟩ := List.head?_eq_some_iff.1 hc
  exact ⟨c, rest, hrest, by simpa using hapart⟩

/-- A keyword has the shape of an identifier. -/
theorem hasIdentifierShape_of_keyword {t : String} (h : t ∈ keywords) :
    hasIdentifierShape t.toList = true := by
  have hall : ∀ t ∈ keywords, hasIdentifierShape t.toList = true := by decide
  exact hall t h

/-- An identifier has the shape of one and is no keyword. -/
theorem of_isIdentifier {t : String} (h : isIdentifier t = true) :
    hasIdentifierShape t.toList = true ∧ keywords.contains t = false := by
  simpa [isIdentifier] using h

/-- A word begins apart. -/
theorem beginsApart_of_shape {cs : List Char} (h : hasIdentifierShape cs = true) :
    ∃ c rest, cs = c :: rest ∧ BeginsApart c := by
  obtain ⟨c, rest, rfl, hopens, -⟩ := exists_of_hasIdentifierShape h
  exact ⟨c, rest, rfl, .inr (.inr hopens)⟩

/-- The text of pieces, the first one apart. -/
theorem charsOf_cons (p : Piece) (ps : List Piece) :
    charsOf (p :: ps) = p.chars ++ charsOf ps := rfl

/-- What can follow a name is the same for all names. -/
theorem standsBefore_name (n : String) (q? : Option Piece) :
    (name n).standsBefore q? = (name "").standsBefore q? := by
  rcases q? with _ | _ | _ | _ | _ | _ | _ | _ <;> rfl

/-- What can follow a keyword can follow a name. -/
theorem standsBefore_keyword (t : String) (q? : Option Piece) :
    (keyword t).standsBefore q? = (name t).standsBefore q? := by
  rcases q? with _ | _ | _ | _ | _ | _ | _ | _ <;> rfl

/-- What does not stick to a word does not continue it. -/
theorem not_continues_of_standsBefore {t : String} {ps : List Piece}
    (hps : ∀ q ∈ ps.head?, q.IsSound) (h : (name t).standsBefore ps.head? = true) :
    ∀ c ∈ (charsOf ps).head?, continuesIdentifier c = false := by
  cases ps with
  | nil => simp [charsOf]
  | cons q ps =>
    have hq := hps q rfl
    rw [charsOf_cons]
    cases q with
    | name u => exact absurd h Bool.false_ne_true
    | keyword u => exact absurd h Bool.false_ne_true
    | sign u =>
      obtain ⟨c, rest, hc, hcont, -⟩ := exists_of_sign hq
      simpa [chars, hc] using hcont
    | quoted u =>
      simp only [chars, toList_quote, List.cons_append, List.head?_cons, Option.mem_some_iff]
      rintro c rfl
      decide
    | blank d =>
      rcases hq with rfl | rfl
      all_goals
        simp only [chars, List.cons_append, List.head?_cons, Option.mem_some_iff]
        rintro c rfl
        decide
    | lineBreak =>
      simp only [chars, List.cons_append, List.head?_cons, Option.mem_some_iff]
      rintro c rfl
      decide
    | comment u =>
      simp only [chars, List.cons_append, List.head?_cons, Option.mem_some_iff]
      rintro c rfl
      decide

/-- A sign is read by itself before a piece that it can stand before. -/
theorem plainLexeme?_sign {t : String} (ht : (sign t).IsSound) {ps : List Piece}
    (hps : ∀ q ∈ ps.head?, q.IsSound) (h : (sign t).standsBefore ps.head? = true) :
    plainLexeme? (t.toList ++ charsOf ps) = some (.sign t, t.toList, charsOf ps) := by
  rcases ht with hclosed | hopen
  · exact plainLexeme?_closedSign hclosed _
  · have hnot : t ∉ closedSigns := by
      have hall : ∀ t ∈ openSigns, t ∉ closedSigns := by decide
      exact hall t hopen
    have hnext : ∃ c rest, charsOf ps = c :: rest ∧ BeginsApart c := by
      cases ps with
      | nil => simp [standsBefore, hnot] at h
      | cons q ps =>
        have hq := hps q rfl
        rw [charsOf_cons]
        cases q with
        | name u =>
          obtain ⟨c, rest, hc, hapart⟩ := beginsApart_of_shape (of_isIdentifier hq).1
          exact ⟨c, rest ++ charsOf ps, by simp [chars, hc], hapart⟩
        | keyword u =>
          obtain ⟨c, rest, hc, hapart⟩ := beginsApart_of_shape (hasIdentifierShape_of_keyword hq)
          exact ⟨c, rest ++ charsOf ps, by simp [chars, hc], hapart⟩
        | blank d => exact ⟨d, charsOf ps, rfl, hq.imp id .inl⟩
        | sign u => simp [standsBefore, hnot] at h
        | quoted u => simp [standsBefore, hnot] at h
        | lineBreak => simp [standsBefore, hnot] at h
        | comment u => simp [standsBefore, hnot] at h
    obtain ⟨c, rest, hc, hapart⟩ := hnext
    rw [hc]
    exact plainLexeme?_openSign hopen hapart rest

/-- A word starts with no white space and no slash. -/
theorem head_not_mem_of_shape {t : String} (h : hasIdentifierShape t.toList = true)
    (rest : List Char) : ∀ c ∈ (t.toList ++ rest).head?, c ∉ ['\n', ' ', '\t', '\r', '/'] := by
  have hall : ∀ d ∈ ['\n', ' ', '\t', '\r', '/'], opensIdentifier d = false :=
    List.all_iff_forall_prop.1 (by decide)
  obtain ⟨c, cs, hc, hopens, -⟩ := exists_of_hasIdentifierShape h
  rw [hc, List.cons_append, List.head?_cons]
  rintro d hd hmem
  obtain rfl := Option.some.inj hd
  exact ne_of_opensIdentifier hopens (hall _ hmem) rfl

/-- One piece is taken in one step. -/
theorem run_piece {p : Piece} (hp : p.IsSound) {ps : List Piece} (hps : ∀ q ∈ ps.head?, q.IsSound)
    (h : p.standsBefore ps.head? = true) (size fuel : Nat) (s : Scan) :
    ∃ s', Scan.run size (fuel + 1) s (charsOf (p :: ps)) = Scan.run size fuel s' (charsOf ps) ∧
      p.IsTaken s s' := by
  rw [charsOf_cons]
  cases p with
  | name t =>
    obtain ⟨hshape, hkeyword⟩ := of_isIdentifier hp
    have hword := plainLexeme?_word hshape (not_continues_of_standsBefore hps h)
    rw [hkeyword] at hword
    exact ⟨_, run_plain hword (head_not_mem_of_shape hshape _) size fuel s, rfl, rfl, rfl, rfl⟩
  | keyword t =>
    have hshape := hasIdentifierShape_of_keyword hp
    rw [standsBefore_keyword] at h
    have hword := plainLexeme?_word hshape (not_continues_of_standsBefore hps h)
    rw [if_pos (List.contains_iff_mem.2 hp)] at hword
    exact ⟨_, run_plain hword (head_not_mem_of_shape hshape _) size fuel s, rfl, rfl, rfl, rfl⟩
  | sign t =>
    obtain ⟨c, rest, hc, -, hnot⟩ := exists_of_sign hp
    refine ⟨_, run_plain (plainLexeme?_sign hp hps h) ?_ size fuel s, rfl, rfl, rfl, rfl⟩
    simpa [hc] using hnot
  | quoted t =>
    refine ⟨_, run_plain (plainLexeme?_quote t _) ?_ size fuel s, rfl, rfl, rfl, rfl⟩
    simp [toList_quote]
  | blank c =>
    refine ⟨{ s with offset := s.offset + 1 }, ?_, rfl, rfl, rfl, ?_⟩
    · rcases hp with rfl | rfl
      · simp [chars, Scan.run]
      · simp [chars, Scan.run]
    · have hsize : c.utf8Size = 1 := by
        rcases hp with rfl | rfl <;> decide
      simp [chars, hsize]
  | lineBreak =>
    have hrun : Scan.run size (fuel + 1) s (chars lineBreak ++ charsOf ps) = Scan.run size fuel
        { s with
          found := if s.ready then (s.offset + 1, .semicolon false) :: s.found else s.found,
          ready := false, offset := s.offset + 1, lineStart := s.offset + 1 } (charsOf ps) := by
      rw [chars, List.singleton_append, Scan.run]
      rfl
    refine ⟨_, hrun, ?_, rfl, rfl, ?_⟩
    · cases s.ready <;> simp [items, lexemes]
    · simp [chars, show (Char.utf8Size '\n') = 1 by decide]
  | comment t =>
    cases ps with
    | nil => exact absurd h Bool.false_ne_true
    | cons q ps =>
      cases q with
      | lineBreak => exact run_comment hp (charsOf ps) size fuel s
      | _ => exact absurd h Bool.false_ne_true

/-- No well-formed piece is empty. -/
theorem chars_ne_nil {p : Piece} (hp : p.IsSound) : p.chars ≠ [] := by
  cases p with
  | name t =>
    obtain ⟨c, cs, hc, -⟩ := exists_of_hasIdentifierShape (of_isIdentifier hp).1
    simp [chars, hc]
  | keyword t =>
    obtain ⟨c, cs, hc, -⟩ := exists_of_hasIdentifierShape (hasIdentifierShape_of_keyword hp)
    simp [chars, hc]
  | sign t =>
    obtain ⟨c, cs, hc, -⟩ := exists_of_sign hp
    simp [chars, hc]
  | quoted t => simp [chars, toList_quote]
  | blank c => simp [chars]
  | lineBreak => simp [chars]
  | comment t => simp [chars]

/-- There are no more pieces than characters. -/
theorem length_le_charsOf {ps : List Piece} (hps : ∀ p ∈ ps, p.IsSound) :
    ps.length ≤ (charsOf ps).length := by
  induction ps with
  | nil => simp
  | cons p ps ih =>
    rw [List.forall_mem_cons] at hps
    have hpos := List.length_pos_iff.2 (chars_ne_nil hps.1)
    have hrest := ih hps.2
    rw [charsOf_cons, List.length_append, List.length_cons]
    omega

/-- Pieces that fit are taken one after the other. -/
theorem run_pieces {ps qs : List Piece} (hps : ∀ p ∈ ps ++ qs, p.IsSound)
    (h : fits (ps ++ qs) = true) (size fuel : Nat) (s : Scan) :
    ∃ s', Scan.run size (ps.length + fuel) s (charsOf (ps ++ qs)) =
        Scan.run size fuel s' (charsOf qs) ∧
      s'.found = (itemsFrom s.offset s.ready ps).reverse ++ s.found ∧ s'.shifts = s.shifts ∧
      s'.ready = ps.foldl (fun ready p => p.readyAfter ready) s.ready ∧
      s'.offset = s.offset + octets (charsOf ps) := by
  -- The induction is on the pieces: each one takes a step, and what it leaves fits as before.
  induction ps generalizing s with
  | nil => exact ⟨s, by rw [List.length_nil, Nat.zero_add]; rfl, rfl, rfl, rfl, rfl⟩
  | cons p ps ih =>
    rw [List.cons_append] at hps h
    obtain ⟨hstands, hfits⟩ := Bool.and_eq_true_iff.1 h
    rw [List.forall_mem_cons] at hps
    obtain ⟨s₁, hrun, htaken⟩ := run_piece hps.1
      (fun q hq => hps.2 q (List.mem_of_mem_head? hq)) hstands size (ps.length + fuel) s
    obtain ⟨s₂, hrest, hfound, hshifts, hready, hoffset⟩ := ih hps.2 hfits s₁
    refine ⟨s₂, ?_, ?_, hshifts.trans htaken.shifts, ?_, ?_⟩
    · rw [List.length_cons, Nat.add_right_comm, List.cons_append, hrun, hrest]
    · rw [hfound, htaken.found, htaken.offset, htaken.ready, itemsFrom, List.reverse_append,
        List.append_assoc]
    · rw [hready, htaken.ready, List.foldl_cons]
    · rw [hoffset, htaken.offset, charsOf_cons, octets_append, Nat.add_assoc]

/-- No well-formed piece holds a forbidden character. -/
theorem not_isForbidden {p : Piece} (hp : p.IsSound) {c : Char} (hc : c ∈ p.chars) :
    isForbidden c = false := by
  have hword : ∀ {t : String}, hasIdentifierShape t.toList = true → c ∈ t.toList →
      isForbidden c = false := by
    intro t ht hc
    obtain ⟨-, -, -, -, hall⟩ := exists_of_hasIdentifierShape ht
    have hcont := hall c hc
    have hnot : ∀ d ∈ ['\x00', '\ufeff'], continuesIdentifier d = false :=
      List.all_iff_forall_prop.1 (by decide +kernel)
    simp only [isForbidden, Bool.or_eq_false_iff, beq_eq_false_iff_ne]
    constructor
    all_goals
      rintro rfl
      rw [hnot _ (by simp)] at hcont
      exact absurd hcont Bool.false_ne_true
  cases p with
  | name t => exact hword (of_isIdentifier hp).1 hc
  | keyword t => exact hword (hasIdentifierShape_of_keyword hp) hc
  | sign t =>
    have hall : ∀ t ∈ closedSigns ++ openSigns, t.toList.all (!isForbidden ·) = true := by decide
    simpa using List.all_eq_true.1 (hall t (List.mem_append.2 hp)) c hc
  | quoted t => exact (isPlainChar_of_mem_quote hc).2
  | blank d =>
    obtain rfl := List.mem_singleton.1 hc
    rcases hp with rfl | rfl <;> decide
  | lineBreak =>
    obtain rfl := List.mem_singleton.1 hc
    decide
  | comment t =>
    simp only [chars, List.mem_cons] at hc
    rcases hc with rfl | rfl | rfl | hc
    · decide
    · decide
    · decide
    · exact (hp c hc).2

end Piece

/-! ## Lines -/

namespace Piece

/-- The pieces of lines. -/
def ofLines (lines : List (List Piece)) : List Piece := lines.flatMap (· ++ [lineBreak])

/-- The elements of a line with its end, each with its position, when it starts at an offset. -/
def lineItems (offset : Nat) (line : List Piece) : List (Nat × Lexeme) :=
  itemsFrom offset false (line ++ [lineBreak])

/-- The elements of lines, each with its position, when the first one starts at an offset. -/
def linesItems (offset : Nat) : List (List Piece) → List (Nat × Lexeme)
  | [] => []
  | line :: lines =>
    lineItems offset line ++ linesItems (offset + octets (charsOf (line ++ [lineBreak]))) lines

/-- Whether each piece of a line can stand before the next one, and the last before the end. -/
def lineFits (line : List Piece) : Bool := fits (line ++ [lineBreak])

/-- The elements of pieces are those of their parts. -/
theorem itemsFrom_append (offset : Nat) (ready : Bool) (ps qs : List Piece) :
    itemsFrom offset ready (ps ++ qs) = itemsFrom offset ready ps ++
      itemsFrom (offset + octets (charsOf ps))
        (ps.foldl (fun ready p => p.readyAfter ready) ready) qs := by
  induction ps generalizing offset ready with
  | nil => rfl
  | cons p ps ih =>
    rw [List.cons_append, itemsFrom, ih, itemsFrom, List.append_assoc, charsOf_cons, octets_append,
      Nat.add_assoc, List.foldl_cons]

/-- After the end of a line a line break counts for nothing. -/
theorem ready_of_lineBreak (ready : Bool) (ps : List Piece) :
    (ps ++ [lineBreak]).foldl (fun ready p => p.readyAfter ready) ready = false := by
  rw [List.foldl_append]
  rfl

/-- The elements of lines are those of each line. -/
theorem itemsFrom_ofLines (offset : Nat) (lines : List (List Piece)) :
    itemsFrom offset false (ofLines lines) = linesItems offset lines := by
  induction lines generalizing offset with
  | nil => rfl
  | cons line lines ih =>
    rw [ofLines, List.flatMap_cons, itemsFrom_append, ready_of_lineBreak, linesItems, ← ih]
    rfl

/-- After lines a line break counts for nothing. -/
theorem ready_ofLines (lines : List (List Piece)) :
    (ofLines lines).foldl (fun ready p => p.readyAfter ready) false = false := by
  induction lines with
  | nil => rfl
  | cons line lines ih =>
    rw [ofLines, List.flatMap_cons, List.foldl_append, ready_of_lineBreak]
    exact ih

/-- Nothing sticks to a line break. -/
theorem fits_append_lineBreak {ps qs : List Piece} (hps : lineFits ps = true)
    (hqs : fits qs = true) : fits (ps ++ lineBreak :: qs) = true := by
  induction ps with
  | nil => exact Bool.and_eq_true_iff.2 ⟨rfl, hqs⟩
  | cons p ps ih =>
    obtain ⟨hp, hrest⟩ := Bool.and_eq_true_iff.1 hps
    refine Bool.and_eq_true_iff.2 ⟨?_, ih hrest⟩
    cases ps with
    | nil => exact hp
    | cons q ps => exact hp

/-- Lines fit when each line does. -/
theorem fits_ofLines {lines : List (List Piece)} (h : ∀ line ∈ lines, lineFits line = true) :
    fits (ofLines lines) = true := by
  induction lines with
  | nil => rfl
  | cons line lines ih =>
    rw [List.forall_mem_cons] at h
    have hlines : ofLines (line :: lines) = line ++ lineBreak :: ofLines lines := by simp [ofLines]
    rw [hlines]
    exact fits_append_lineBreak h.1 (ih h.2)

/-- The pieces of lines are well formed when those of each line are. -/
theorem isSound_ofLines {lines : List (List Piece)} (h : ∀ line ∈ lines, ∀ p ∈ line, p.IsSound) :
    ∀ p ∈ ofLines lines, p.IsSound := by
  intro p hp
  obtain ⟨line, hline, hp⟩ := List.mem_flatMap.1 hp
  rcases List.mem_append.1 hp with hp | hp
  · exact h line hline p hp
  · obtain rfl := List.mem_singleton.1 hp
    trivial

/-- The elements of lines of pieces which fit, and that no comment asks for a line count. -/
theorem lexemes?_ofLines {lines : List (List Piece)} (h : ∀ line ∈ lines, ∀ p ∈ line, p.IsSound)
    (hfits : ∀ line ∈ lines, lineFits line = true) :
    lexemes? (charsOf (ofLines lines)) =
      some (linesItems 0 lines ++ [(octets (charsOf (ofLines lines)) + 1, .finish)], []) := by
  have hps := isSound_ofLines h
  have hforbidden : (charsOf (ofLines lines)).any isForbidden = false := by
    rw [List.any_eq_false]
    intro c hc
    obtain ⟨p, hp, hc⟩ := List.mem_flatMap.1 hc
    rw [not_isForbidden (hps p hp) hc]
    exact Bool.false_ne_true
  obtain ⟨fuel, hfuel⟩ : ∃ fuel, (charsOf (ofLines lines)).length + 2 =
      (ofLines lines).length + (fuel + 1) :=
    ⟨(charsOf (ofLines lines)).length + 1 - (ofLines lines).length, by
      have := length_le_charsOf hps
      omega⟩
  obtain ⟨s, hrun, hfound, hshifts, hready, hoffset⟩ := @run_pieces (ofLines lines) []
    (by simpa using hps) (by simpa using fits_ofLines hfits) (octets (charsOf (ofLines lines)))
    (fuel + 1) {}
  rw [List.append_nil] at hrun
  rw [ready_ofLines] at hready
  rw [itemsFrom_ofLines] at hfound
  have hend : charsOf [] = [] := rfl
  unfold lexemes?
  rw [hforbidden, hfuel, hrun, hend, Scan.run, hready, hoffset, hshifts, hfound]
  simp

end Piece

end NodeFamily.Layout
