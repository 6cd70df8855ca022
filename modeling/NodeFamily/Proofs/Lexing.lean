import NodeFamily.Proofs.Characters
import NodeFamily.Proofs.Pieces

/-!
# Lexing a declaration

What the tokens of a declaration say about its text. A colon or a comma is always a token of its own
(`lexFrom_append_separator`), so lexing commutes with cutting a text at these signs, and each piece
can be looked at alone. Inside a piece, spacing does not show (`significant_lexFrom_gap`), a word
takes as much as it can (`significant_lexFrom_word`), and every token that shows comes about in this
way (`exists_of_significant_lexFrom_eq_cons`). No character that could continue a word follows it
(`not_continuesName_after_word`).
-/

namespace NodeFamily

open Text (takeWhile_append_stop drop_length_takeWhile take_length_takeWhile)

namespace Position

@[simp]
theorem advance_nil (p : Position) : p.advance [] = p := rfl

@[simp]
theorem advance_cons (p : Position) (c : Char) (cs : List Char) :
    p.advance (c :: cs) = (p.step c).advance cs := rfl

/-- Places after texts one after another. -/
theorem advance_append (p : Position) (xs ys : List Char) :
    p.advance (xs ++ ys) = (p.advance xs).advance ys := by
  simp [advance, List.foldl_append]

end Position

/-- Spacing of any length, none included. -/
def IsGap (cs : List Char) : Prop := ∀ c ∈ cs, Text.isSpacing c = true

namespace Token

@[simp]
theorem lexFrom_nil (p : Position) : lexFrom p [] = [] := by rw [lexFrom]

/-- The first token and the rest. -/
theorem lexFrom_cons (p : Position) (c : Char) (rest : List Char) :
    lexFrom p (c :: rest) =
      ⟨(front c rest).1, String.ofList (c :: rest.take (front c rest).2), p⟩ ::
        lexFrom (p.advance (c :: rest.take (front c rest).2)) (rest.drop (front c rest).2) := by
  rw [lexFrom]

@[simp]
theorem significant_nil : significant [] = [] := rfl

theorem significant_cons (t : Token) (ts : List Token) :
    significant (t :: ts) = if t.kind = .spacing then significant ts else t :: significant ts := by
  simp only [significant, List.filter_cons, decide_not, Bool.not_eq_true', decide_eq_false_iff_not,
    ite_not]

/-! ## Extents -/

/-- Whether a text ends the word before it, whatever that is. -/
def EndsWord (rest : List Char) : Prop :=
  ∀ c ∈ rest.head?, continuesName c = false ∧ c ≠ '.' ∧ c ≠ '*'

/-- The end of the text ends a word. -/
theorem endsWord_nil : EndsWord [] := by simp [EndsWord]

/-- A colon or a comma ends a word. -/
theorem endsWord_separator {sep : Char} (h : sep = ':' ∨ sep = ',') (rest : List Char) :
    EndsWord (sep :: rest) := by
  intro c hc
  obtain rfl : sep = c := by simpa using hc
  rcases h with rfl | rfl <;> decide

/-- Spacing ends a word. -/
theorem endsWord_spacing {c : Char} (h : Text.isSpacing c = true) (rest : List Char) :
    EndsWord (c :: rest) := by
  intro d hd
  obtain rfl : c = d := by simpa using hd
  refine ⟨not_continuesName_of_isSpacing h, ?_, ?_⟩ <;> rintro rfl <;> exact absurd h (by decide)

/-- A name goes no further than a character that does not continue it. -/
theorem nameExtent_append {xs rest : List Char}
    (h : ∀ c ∈ rest.head?, continuesName c = false) :
    nameExtent (xs ++ rest) = nameExtent xs := by
  cases rest with
  | nil => rw [List.append_nil]
  | cons c rest =>
    have hc : continuesName c = false := h c rfl
    cases xs with
    | nil =>
      have ho : opensName c ≠ true := fun ho => by
        rw [continuesName_of_opensName ho] at hc
        exact absurd hc (by decide)
      simp [nameExtent, ho]
    | cons x xs => simp only [List.cons_append, nameExtent, takeWhile_append_stop hc]

/-- The name at the front is part of the text. -/
theorem nameExtent_le (cs : List Char) : nameExtent cs ≤ cs.length := by
  cases cs with
  | nil => exact Nat.le_refl 0
  | cons c rest =>
    have := (List.takeWhile_sublist continuesName (l := rest)).length_le
    simp only [nameExtent, List.length_cons]
    split <;> omega

/-- The character after a name does not continue it. -/
theorem not_continuesName_after_name {cs : List Char} (h : nameExtent cs ≠ 0) {c : Char}
    (hc : c ∈ (cs.drop (nameExtent cs)).head?) : continuesName c = false := by
  cases cs with
  | nil => exact absurd rfl h
  | cons x rest =>
    have ho : opensName x = true := by
      by_contra ho
      exact h (by simp [nameExtent, ho])
    rw [nameExtent, if_pos ho, Nat.add_comm, List.drop_succ_cons, drop_length_takeWhile] at hc
    have hstop := List.head?_dropWhile_not continuesName rest
    rw [Option.mem_def.1 hc] at hstop
    exact hstop

/-- A word goes no further than a text that ends it. -/
theorem wordExtent_append (xs : List Char) {rest : List Char} (h : EndsWord rest) :
    wordExtent (xs ++ rest) = wordExtent xs := by
  have hname : ∀ ys, nameExtent (ys ++ rest) = nameExtent ys := fun ys =>
    nameExtent_append fun c hc => (h c hc).1
  cases xs with
  | nil =>
    cases rest with
    | nil => rfl
    | cons c rest =>
      have hzero : nameExtent (c :: rest) = 0 := hname []
      show wordExtent (c :: rest) = 0
      simp [wordExtent, (h c rfl).2.2, hzero]
  | cons x xs =>
    -- The star and the name lie inside `x :: xs`, so what is dropped before the dot does too.
    unfold wordExtent
    rw [show (x :: xs ++ rest).head? = (x :: xs).head? from rfl]
    generalize hstar : (if (x :: xs).head? = some '*' then 1 else 0) = star
    dsimp only
    have hle : star ≤ (x :: xs).length := by
      rw [← hstar, List.length_cons]
      split <;> omega
    rw [List.drop_append_of_le_length hle, hname]
    have hbound := nameExtent_le ((x :: xs).drop star)
    rw [List.length_drop] at hbound
    rw [List.drop_append_of_le_length (by omega)]
    generalize (x :: xs).drop (star + nameExtent ((x :: xs).drop star)) = tail
    cases tail with
    | nil =>
      have hdot : rest.head? ≠ some '.' := fun hd => (h '.' hd).2.1 rfl
      simp [hdot]
    | cons t tail => simp [hname]

/-- The word at the front is part of the text. -/
theorem wordExtent_le (cs : List Char) : wordExtent cs ≤ cs.length := by
  unfold wordExtent
  have hstar : (if cs.head? = some '*' then 1 else 0) ≤ cs.length := by
    cases cs with
    | nil => simp
    | cons c cs => split <;> simp
  generalize (if cs.head? = some '*' then 1 else 0) = star at hstar ⊢
  have hname := nameExtent_le (cs.drop star)
  have hmember := nameExtent_le (cs.drop (star + nameExtent (cs.drop star))).tail
  simp only [List.length_drop, List.length_tail] at hname hmember
  dsimp only
  split
  · omega
  · split_ifs <;> omega

/-- The character after a word does not continue it. -/
theorem not_continuesName_after_word {cs : List Char} (h : wordExtent cs ≠ 0) {c : Char}
    (hc : c ∈ (cs.drop (wordExtent cs)).head?) : continuesName c = false := by
  unfold wordExtent at h hc
  generalize (if cs.head? = some '*' then 1 else 0) = star at h hc
  dsimp only at h hc
  have hname : nameExtent (cs.drop star) ≠ 0 := fun hz => h (if_pos hz)
  rw [if_neg hname] at hc
  generalize hmember : (if (cs.drop (star + nameExtent (cs.drop star))).head? = some '.' then
    nameExtent (cs.drop (star + nameExtent (cs.drop star))).tail else 0) = member at hc
  -- The word ends with its name, or with the member after the dot, which is a name as well.
  by_cases hz : member = 0
  · rw [if_pos hz, Nat.add_zero, ← List.drop_drop] at hc
    exact not_continuesName_after_name hname hc
  · rw [if_neg hz, ← Nat.add_assoc, ← List.drop_drop, ← List.drop_drop] at hc
    rw [List.drop_one] at hc
    have hdot : (cs.drop (star + nameExtent (cs.drop star))).head? = some '.' := by
      by_contra hd
      exact hz (by rw [← hmember, if_neg hd])
    rw [if_pos hdot] at hmember
    rw [← hmember] at hc hz
    exact not_continuesName_after_name hz hc

/-- An identifier is a name as a whole. -/
theorem nameExtent_identifier {n : List Char} (h : hasIdentifierShape n = true) :
    nameExtent n = n.length := by
  cases n with
  | nil => exact absurd h (by decide)
  | cons c rest =>
    obtain ⟨ho, hall⟩ := Bool.and_eq_true_iff.1 h
    have hrest : rest.takeWhile continuesName = rest := by
      apply List.takeWhile_eq_self_iff.2
      intro d hd
      exact continuesName_of_continuesIdentifier (List.all_eq_true.1 hall d hd)
    have ho : opensName c = true := ho
    rw [nameExtent, if_pos ho, hrest, List.length_cons, Nat.add_comm]

/-- An identifier is not empty. -/
theorem length_identifier_ne_zero {n : List Char} (h : hasIdentifierShape n = true) :
    n.length ≠ 0 := by
  intro hz
  rw [List.length_eq_zero_iff.1 hz] at h
  exact absurd h (by decide)

/-- An identifier begins with no star. -/
theorem head?_identifier_ne_star {n : List Char} (h : hasIdentifierShape n = true)
    (rest : List Char) : (n ++ rest).head? ≠ some '*' := by
  cases n with
  | nil => exact absurd h (by decide)
  | cons c n =>
    intro hc
    obtain rfl : c = '*' := by simpa using hc
    simp only [hasIdentifierShape, Bool.and_eq_true] at h
    exact absurd h.1 (by decide)

/-- The word at the front, after its optional star. -/
theorem wordExtent_star {star cs : List Char} (hstar : star = [] ∨ star = ['*'])
    (hcs : cs.head? ≠ some '*') (hname : nameExtent cs ≠ 0) :
    wordExtent (star ++ cs) =
      star.length + nameExtent cs +
        if (if (cs.drop (nameExtent cs)).head? = some '.' then
          nameExtent (cs.drop (nameExtent cs)).tail else 0) = 0 then 0
        else 1 + if (cs.drop (nameExtent cs)).head? = some '.' then
          nameExtent (cs.drop (nameExtent cs)).tail else 0 := by
  rcases hstar with rfl | rfl
  · simp [wordExtent, hcs, hname]
  · have hdrop : ('*' :: cs).drop (1 + nameExtent cs) = cs.drop (nameExtent cs) := by
      rw [Nat.add_comm, List.drop_succ_cons]
    simp only [wordExtent, List.cons_append, List.nil_append, List.head?_cons, if_true,
      List.drop_succ_cons, List.drop_zero, if_neg hname, hdrop, List.length_singleton]

/-- An identifier after an optional star is a word as a whole. -/
theorem wordExtent_name {star n : List Char} (hstar : star = [] ∨ star = ['*'])
    (hn : hasIdentifierShape n = true) : wordExtent (star ++ n) = (star ++ n).length := by
  have hextent := nameExtent_identifier hn
  have hne : nameExtent n ≠ 0 := by rw [hextent]; exact length_identifier_ne_zero hn
  have hhead := head?_identifier_ne_star hn []
  rw [List.append_nil] at hhead
  rw [wordExtent_star hstar hhead hne, hextent, List.drop_length]
  simp

/-- An identifier with a member, after an optional star, is a word as a whole. -/
theorem wordExtent_member {star n m : List Char} (hstar : star = [] ∨ star = ['*'])
    (hn : hasIdentifierShape n = true) (hm : hasIdentifierShape m = true) :
    wordExtent (star ++ (n ++ '.' :: m)) = (star ++ (n ++ '.' :: m)).length := by
  have hextent : nameExtent (n ++ '.' :: m) = n.length := by
    rw [nameExtent_append, nameExtent_identifier hn]
    intro c hc
    obtain rfl : '.' = c := by simpa using hc
    decide
  have hne : nameExtent (n ++ '.' :: m) ≠ 0 := by
    rw [hextent]; exact length_identifier_ne_zero hn
  rw [wordExtent_star hstar (head?_identifier_ne_star hn _) hne, hextent, List.drop_left]
  simp only [List.head?_cons, if_true, List.tail_cons, nameExtent_identifier hm,
    if_neg (length_identifier_ne_zero hm), List.length_append, List.length_cons]
  omega

/-! ## Separators -/

/-- The sort of the token that a separator is. -/
def separatorKind (sep : Char) : TokenKind := if sep = ':' then .colon else .comma

/-- A separator is a token by itself. -/
theorem front_separator {sep : Char} (h : sep = ':' ∨ sep = ',') (rest : List Char) :
    front sep rest = (separatorKind sep, 0) := by
  have hword : wordExtent (sep :: rest) = 0 :=
    wordExtent_append [] (endsWord_separator h rest)
  rcases h with rfl | rfl <;> simp [front, hword, separatorKind]

/-- No token goes across a separator. -/
theorem front_append_separator {sep : Char} (h : sep = ':' ∨ sep = ',') (c : Char)
    (xs rest : List Char) : front c (xs ++ sep :: rest) = front c xs := by
  have hword : wordExtent (c :: (xs ++ sep :: rest)) = wordExtent (c :: xs) :=
    wordExtent_append (c :: xs) (endsWord_separator h rest)
  have hsep : Text.isSpacing sep = false := by rcases h with rfl | rfl <;> decide
  simp only [front, hword, takeWhile_append_stop hsep]

/-- The token at the front is part of the text. -/
theorem front_le (c : Char) (rest : List Char) : (front c rest).2 ≤ rest.length := by
  have hword := wordExtent_le (c :: rest)
  have hrun := (List.takeWhile_sublist Text.isSpacing (l := rest)).length_le
  rw [List.length_cons] at hword
  unfold front
  dsimp only
  split_ifs <;> simp only <;> omega

/-- The token of a word is the word at the front. -/
theorem front_word {c : Char} {rest : List Char} (h : (front c rest).1 = .word) :
    (front c rest).2 + 1 = wordExtent (c :: rest) := by
  unfold front at h ⊢
  dsimp only at h ⊢
  split_ifs at h ⊢ with hextent
  simp only
  omega

/-- A separator is a token of its own, between the tokens before it and those after it. -/
theorem lexFrom_append_separator {sep : Char} (h : sep = ':' ∨ sep = ',') (p : Position)
    (xs rest : List Char) :
    lexFrom p (xs ++ sep :: rest) =
      lexFrom p xs ++ ⟨separatorKind sep, String.ofList [sep], p.advance xs⟩ ::
        lexFrom (p.advance (xs ++ [sep])) rest := by
  fun_induction lexFrom p xs with
  | case1 p => rw [List.nil_append, lexFrom_cons, front_separator h]; simp
  | case2 p c xs sort text ih =>
    -- The first token is that of `c :: xs`, and the induction is on what it leaves.
    have hle := front_le c xs
    rw [List.cons_append, lexFrom_cons, front_append_separator h,
      List.take_append_of_le_length hle, List.drop_append_of_le_length hle]
    have htext : p.advance (c :: xs) = (p.advance text).advance (xs.drop sort.2) := by
      rw [← Position.advance_append, List.cons_append, List.take_append_drop]
    rw [ih, Position.advance_append p, htext, Position.advance_append]
    rfl

/-! ## The tokens that show -/

/-- A run of spacing is one token. -/
theorem front_spacing {c : Char} (h : Text.isSpacing c = true) (rest : List Char) :
    front c rest = (.spacing, (rest.takeWhile Text.isSpacing).length) := by
  have hword : wordExtent (c :: rest) = 0 := wordExtent_append [] (endsWord_spacing h rest)
  have hcolon : c ≠ ':' := by rintro rfl; exact absurd h (by decide)
  have hcomma : c ≠ ',' := by rintro rfl; exact absurd h (by decide)
  simp [front, hword, hcolon, hcomma, h]

/-- A run of spacing does not show. -/
theorem significant_lexFrom_run {c : Char} (h : Text.isSpacing c = true) (p : Position)
    (cs : List Char) :
    significant (lexFrom p (c :: cs)) =
      significant (lexFrom ((p.step c).advance (cs.takeWhile Text.isSpacing))
        (cs.dropWhile Text.isSpacing)) := by
  rw [lexFrom_cons, front_spacing h, significant_cons, if_pos rfl, drop_length_takeWhile,
    take_length_takeWhile, Position.advance_cons]

/-- One character of spacing does not show. -/
theorem significant_lexFrom_spacing {c : Char} (h : Text.isSpacing c = true) (p : Position)
    (cs : List Char) :
    significant (lexFrom p (c :: cs)) = significant (lexFrom (p.step c) cs) := by
  rw [significant_lexFrom_run h]
  cases cs with
  | nil => rfl
  | cons d cs =>
    -- If the run goes on, what is left of it is a run again, and both leave the same rest.
    by_cases hd : Text.isSpacing d = true
    · rw [significant_lexFrom_run hd, List.takeWhile_cons_of_pos hd, List.dropWhile_cons_of_pos hd,
        Position.advance_cons]
    · rw [List.takeWhile_cons_of_neg hd, List.dropWhile_cons_of_neg hd, Position.advance_nil]

/-- Spacing does not show. -/
theorem significant_lexFrom_gap {g : List Char} (h : IsGap g) (p : Position) (cs : List Char) :
    significant (lexFrom p (g ++ cs)) = significant (lexFrom (p.advance g) cs) := by
  induction g generalizing p with
  | nil => rfl
  | cons c g ih =>
    rw [List.cons_append, significant_lexFrom_spacing (h c List.mem_cons_self),
      ih (fun d hd => h d (List.mem_cons_of_mem c hd)), Position.advance_cons]

/-- A word takes as much as it can. -/
theorem significant_lexFrom_word {w rest : List Char} (hne : w ≠ [])
    (h : wordExtent (w ++ rest) = w.length) (p : Position) :
    significant (lexFrom p (w ++ rest)) =
      ⟨.word, String.ofList w, p⟩ :: significant (lexFrom (p.advance w) rest) := by
  obtain ⟨c, w, rfl⟩ := List.exists_cons_of_ne_nil hne
  have hfront : front c (w ++ rest) = (.word, w.length) := by
    unfold front
    rw [← List.cons_append, h]
    simp
  rw [List.cons_append, lexFrom_cons, hfront, significant_cons, if_neg (by simp)]
  simp

/-- A text that does not begin with spacing begins with a token that shows. -/
theorem significant_lexFrom_cons {c : Char} (h : Text.isSpacing c = false) (p : Position)
    (cs : List Char) :
    significant (lexFrom p (c :: cs)) =
      ⟨(front c cs).1, String.ofList (c :: cs.take (front c cs).2), p⟩ ::
        significant (lexFrom (p.advance (c :: cs.take (front c cs).2))
          (cs.drop (front c cs).2)) := by
  have hkind : (front c cs).1 ≠ .spacing := by
    unfold front
    dsimp only
    split_ifs <;> simp_all
  rw [lexFrom_cons, significant_cons, if_neg hkind]

/-- A text is spacing and then a text that does not begin with spacing. -/
theorem exists_gap (cs : List Char) :
    ∃ g rest, cs = g ++ rest ∧ IsGap g ∧ ∀ c ∈ rest.head?, Text.isSpacing c = false := by
  refine ⟨cs.takeWhile Text.isSpacing, cs.dropWhile Text.isSpacing,
    List.takeWhile_append_dropWhile.symm, fun c hc => List.mem_takeWhile_imp hc, ?_⟩
  intro c hc
  have hstop := List.head?_dropWhile_not Text.isSpacing cs
  rw [Option.mem_def.1 hc] at hstop
  exact hstop

/-- Nothing shows exactly when there is only spacing. -/
theorem significant_lexFrom_eq_nil_iff {p : Position} {cs : List Char} :
    significant (lexFrom p cs) = [] ↔ IsGap cs := by
  obtain ⟨g, rest, rfl, hg, hrest⟩ := exists_gap cs
  rw [significant_lexFrom_gap hg]
  cases rest with
  | nil => simpa using hg
  | cons c rest =>
    have hc : Text.isSpacing c = false := hrest c rfl
    rw [significant_lexFrom_cons hc]
    simp only [reduceCtorEq, false_iff]
    intro hgap
    rw [hgap c (by simp)] at hc
    exact absurd hc (by decide)

/-- The first token that shows, the spacing before it, and what is left after it. -/
theorem exists_of_significant_lexFrom_eq_cons {p : Position} {cs : List Char} {t : Token}
    {ts : List Token} (h : significant (lexFrom p cs) = t :: ts) :
    ∃ g w rest, cs = g ++ (w ++ rest) ∧ IsGap g ∧ w ≠ [] ∧ t.text = String.ofList w ∧
      t.position = p.advance g ∧ ts = significant (lexFrom (p.advance (g ++ w)) rest) ∧
      (t.kind = .word → wordExtent (w ++ rest) = w.length) := by
  obtain ⟨g, cs, rfl, hg, hcs⟩ := exists_gap cs
  rw [significant_lexFrom_gap hg] at h
  cases cs with
  | nil => simp at h
  | cons c cs =>
    rw [significant_lexFrom_cons (hcs c rfl)] at h
    obtain ⟨rfl, rfl⟩ := List.cons.inj h
    refine ⟨g, c :: cs.take (front c cs).2, cs.drop (front c cs).2, ?_, hg, by simp, rfl, rfl, ?_,
      ?_⟩
    · rw [List.cons_append, List.take_append_drop]
    · rw [Position.advance_append]
    · intro hword
      rw [List.cons_append, List.take_append_drop, List.length_cons,
        List.length_take_of_le (front_le c cs)]
      exact (front_word hword).symm

end Token

end NodeFamily
