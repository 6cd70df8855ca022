import NodeFamily.Declaration
import NodeFamily.Proofs.Lexing

/-!
# Segments of a declaration

A declaration is cut on tokens, and this is the same as cutting its text. What stands before the
first colon gives the tokens of the header (`ofString_of_colon`), and the text after it, cut at
every comma, gives the segments: `segmentsOf` lexes each piece by itself, and `cutFrom_lexFrom`
shows that these are the segments of the declaration.
-/

namespace NodeFamily

namespace Token

/-- A separator that is not in the text is not among its tokens. -/
theorem kind_ne_of_mem_lexFrom {sep : Char} (h : sep = ':' ∨ sep = ',') {p : Position}
    {cs : List Char} (hsep : sep ∉ cs) {t : Token} (ht : t ∈ lexFrom p cs) :
    t.kind ≠ separatorKind sep := by
  fun_induction lexFrom p cs with
  | case1 => exact absurd ht List.not_mem_nil
  | case2 p c rest sort text ih =>
    rcases List.mem_cons.1 ht with rfl | ht
    · -- The rules for a colon and a comma look at the first character only.
      have hc : c ≠ sep := fun hc => hsep (hc ▸ List.mem_cons_self)
      show (front c rest).1 ≠ separatorKind sep
      unfold front
      dsimp only
      rcases h with rfl | rfl <;> split_ifs <;> simp_all [separatorKind]
    · exact ih (fun hm => hsep (List.mem_cons_of_mem c (List.mem_of_mem_drop hm))) ht

end Token

open Token (lexFrom significant separatorKind)

namespace Segment

/-- The segments of pieces of text, of which the first comes after `separator` and begins at `p`. -/
def segmentsOf (separator : Token) (p : Position) : List (List Char) → List Segment
  | [] => []
  | piece :: pieces =>
    ⟨separator, lexFrom p piece⟩ ::
      segmentsOf ⟨.comma, ",", p.advance piece⟩ (p.advance (piece ++ [','])) pieces

/-- The text of a segment is its piece without white space at the ends. -/
theorem text_lexFrom (separator : Token) (p : Position) (cs : List Char) :
    text ⟨separator, lexFrom p cs⟩ = Text.trim (String.ofList cs) := by
  rw [text, Token.concat_lexFrom]

/-- Tokens without a comma are the rest of one segment. -/
theorem cutFrom_of_forall {ts : List Token} (h : ∀ t ∈ ts, t.kind ≠ .comma) (separator : Token)
    (run : List Token) : cutFrom separator run ts = [⟨separator, run.reverse ++ ts⟩] := by
  induction ts generalizing run with
  | nil => rw [cutFrom, List.append_nil]
  | cons t ts ih =>
    rw [cutFrom, if_neg (h t List.mem_cons_self), ih fun u hu => h u (List.mem_cons_of_mem t hu),
      List.reverse_cons, List.append_assoc, List.singleton_append]

/-- Tokens up to a comma are the rest of the first segment. -/
theorem cutFrom_append_comma {ts : List Token} (h : ∀ t ∈ ts, t.kind ≠ .comma)
    {comma : Token} (hcomma : comma.kind = .comma) (separator : Token) (run rest : List Token) :
    cutFrom separator run (ts ++ comma :: rest) =
      ⟨separator, run.reverse ++ ts⟩ :: cutFrom comma [] rest := by
  induction ts generalizing run with
  | nil => rw [List.nil_append, cutFrom, if_pos hcomma, List.append_nil]
  | cons t ts ih =>
    rw [List.cons_append, cutFrom, if_neg (h t List.mem_cons_self),
      ih fun u hu => h u (List.mem_cons_of_mem t hu), List.reverse_cons, List.append_assoc,
      List.singleton_append]

/-- Cutting the tokens at commas is cutting the text at commas. -/
theorem cutFrom_lexFrom (separator : Token) (p : Position) (cs : List Char) :
    cutFrom separator [] (lexFrom p cs) = segmentsOf separator p (Text.cutAt ',' cs) := by
  have hcomma : ∀ {p : Position} {piece : List Char}, ',' ∉ piece →
      ∀ t ∈ lexFrom p piece, t.kind ≠ .comma := fun hpiece t ht =>
    Token.kind_ne_of_mem_lexFrom (.inr rfl) hpiece ht
  -- The induction is on pieces without commas, after whatever separator and wherever they begin.
  have hpieces : ∀ (pieces : List (List Char)) (separator : Token) (p : Position), pieces ≠ [] →
      (∀ piece ∈ pieces, ',' ∉ piece) →
      cutFrom separator [] (lexFrom p ([','].intercalate pieces)) =
        segmentsOf separator p pieces := by
    intro pieces
    induction pieces with
    | nil => intro _ _ hne; exact absurd rfl hne
    | cons piece pieces ih =>
      intro separator p _ hnot
      have hpiece := hcomma (p := p) (hnot piece List.mem_cons_self)
      cases pieces with
      | nil => rw [List.intercalate_singleton, cutFrom_of_forall hpiece]; rfl
      | cons next pieces =>
        rw [List.intercalate_cons_cons, List.append_assoc, List.singleton_append,
          Token.lexFrom_append_separator (.inr rfl), cutFrom_append_comma hpiece rfl,
          ih _ _ (by simp) fun q hq => hnot q (List.mem_cons_of_mem piece hq)]
        rfl
  have := hpieces (Text.cutAt ',' cs) separator p (Text.cutAt_ne_nil _ _)
    fun _ => Text.not_mem_of_mem_cutAt
  rwa [Text.intercalate_cutAt] at this

end Segment

namespace Declaration

/-- The colon token of a declaration whose header is `pre`. -/
def colonAfter (pre : List Char) : Token := ⟨.colon, ":", Position.start.advance pre⟩

/-- No token before the first colon is one. -/
theorem forall_kind_ne_colon {p : Position} {pre : List Char} (hpre : ':' ∉ pre) :
    ∀ t ∈ lexFrom p pre, decide (t.kind ≠ .colon) = true := by
  intro t ht
  exact decide_eq_true (Token.kind_ne_of_mem_lexFrom (.inl rfl) hpre ht)

/-- A declaration is cut at its first colon, and the text after it at every comma. -/
theorem ofString_of_colon {s : String} {pre rest : List Char} (hs : s.toList = pre ++ ':' :: rest)
    (hpre : ':' ∉ pre) :
    (ofString s).parts? = some (significant (lexFrom .start pre), colonAfter pre,
      Segment.segmentsOf (colonAfter pre) (Position.start.advance (pre ++ [':']))
        (Text.cutAt ',' rest)) := by
  have hlex : Token.lex s = lexFrom .start pre ++ colonAfter pre ::
      lexFrom (Position.start.advance (pre ++ [':'])) rest := by
    rw [Token.lex, hs, Token.lexFrom_append_separator (.inl rfl)]
    rfl
  have hbefore := forall_kind_ne_colon (p := .start) hpre
  unfold ofString
  dsimp only
  rw [hlex, List.dropWhile_append_of_pos hbefore, List.takeWhile_append_of_pos hbefore,
    List.dropWhile_cons_of_neg (by simp [colonAfter]),
    List.takeWhile_cons_of_neg (by simp [colonAfter]), List.append_nil, ← Segment.cutFrom_lexFrom]

/-- A declaration without a colon has no parts. -/
theorem ofString_of_not_mem {s : String} (hs : ':' ∉ s.toList) : (ofString s).parts? = none := by
  have hnil : (Token.lex s).dropWhile (fun t => decide (t.kind ≠ .colon)) = [] :=
    List.dropWhile_eq_nil_iff.2 (forall_kind_ne_colon hs)
  unfold ofString
  dsimp only
  rw [hnil]

end Declaration

end NodeFamily
