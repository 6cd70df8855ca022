import Mathlib.Data.String.Basic
import NodeFamily.Proofs.Pieces
import NodeFamily.SchemaFile.Content

/-!
# Schema files of lines as filters

What is read from a schema file of one declaration per line is a filter of its numbered lines
(`ofContent_text`). The lines are counted from one, whether they are declarations or not, and a
declaration is a line without the white space at its ends. Only the length of a line can make the
file unreadable, and then it does not matter what the line holds.

The reader counts as it goes. `numberedLines_eq` takes the counting out of it: the lines are
numbered first, by `List.zipIdx`, and then some of them are left out.
-/

namespace NodeFamily.SchemaFile

/-- A line holds a declaration when something is left of it without white space at its ends that
begins neither with a hash nor with two slashes. -/
def IsDeclaration (line : String) : Prop :=
  let trimmed := (Text.trim line).toList
  trimmed ≠ [] ∧ ¬['#'] <+: trimmed ∧ ¬['/', '/'] <+: trimmed

/-- What a file has of the lines of a text. -/
structure NumbersLines (lines : List String) (f : SchemaFile) : Prop where
  /-- There is a line for each declaration. -/
  length_eq : f.variants.length = f.lines.length
  /-- The lines come in the order of the text, each once. -/
  ascending : f.lines.Pairwise (· < ·)
  /-- The lines are those that hold declarations. -/
  mem_lines_iff (n : Nat) : n ∈ f.lines ↔
    0 < n ∧ ∃ line, lines[n - 1]? = some line ∧ IsDeclaration line
  /-- Each declaration is its line without white space at the ends. -/
  getElem?_variants (i : Nat) : f.variants[i]? =
    f.lines[i]?.bind fun n => lines[n - 1]?.map Text.trim
  /-- The line of a declaration can be asked for by the index of the declaration. -/
  line_eq (i : Nat) (h : i < f.lines.length) : f.line i = f.lines[i]
  /-- There is no line for any other number. -/
  line_eq_zero (i : Int) (h : i < 0 ∨ f.lines.length ≤ i) : f.line i = 0
  /-- Nothing else is read from the text. -/
  eq_mk : f = { variants := f.variants, lines := f.lines }

/-- The length of a line is counted in the octets of its text. -/
theorem byteLength_eq (cs : List Char) : byteLength cs = (String.ofList cs).utf8ByteSize := by
  have hfold : ∀ n, cs.foldl (fun n c => n + c.utf8Size) n = n + String.utf8Len cs := by
    induction cs with
    | nil => exact fun n => rfl
    | cons c cs ih =>
      intro n
      rw [List.foldl_cons, ih, String.utf8Len_cons]
      omega
  rw [String.utf8ByteSize_ofList, byteLength, hfold, Nat.zero_add]

/-- The test for declarations is that for what begins a comment. -/
theorem isDeclarationLine_iff {line : String} :
    isDeclarationLine (Text.trimChars line.toList) = true ↔ IsDeclaration line := by
  unfold IsDeclaration Text.trim
  rw [String.toList_ofList]
  generalize Text.trimChars line.toList = cs
  fun_cases isDeclarationLine cs with
  | case1 => simp
  | case2 rest => simp
  | case3 rest => simp
  | case4 _ hnil hhash hslashes =>
    -- Whatever begins with one of the marks goes on with some rest.
    refine iff_of_true rfl ⟨hnil, ?_, ?_⟩
    · rintro ⟨rest, rfl⟩
      exact hhash rest rfl
    · rintro ⟨rest, rfl⟩
      exact hslashes rest rfl

/-- The declarations with their numbers are the lines that hold declarations, numbered before any
line is left out. -/
theorem numberedLines_eq (n : Nat) (lines : List (List Char)) :
    numberedLines n lines =
      ((lines.zipIdx n).filter fun p => isDeclarationLine (Text.trimChars p.1)).map
        fun p => (p.2, String.ofList (Text.trimChars p.1)) := by
  induction lines generalizing n with
  | nil => rfl
  | cons line lines ih =>
    rw [numberedLines, List.zipIdx_cons, List.filter_cons]
    dsimp only
    split_ifs
    · rw [List.map_cons, ih]
    · exact ih (n + 1)

/-- A declaration has a number exactly when the line with that number holds it. -/
theorem mem_numberedLines_iff {lines : List String} {n : Nat} {decl : String} :
    (n, decl) ∈ numberedLines 1 (lines.map String.toList) ↔
      0 < n ∧ ∃ line, lines[n - 1]? = some line ∧ IsDeclaration line ∧ decl = Text.trim line := by
  rw [numberedLines_eq, List.mem_map]
  constructor
  · rintro ⟨⟨cs, m⟩, hmem, heq⟩
    obtain ⟨rfl, rfl⟩ := Prod.mk.inj heq
    obtain ⟨hline, hholds⟩ := List.mem_filter.1 hmem
    obtain ⟨hpos, hline⟩ := List.mk_mem_zipIdx_iff_le_and_getElem?_sub.1 hline
    rw [List.getElem?_map] at hline
    obtain ⟨line, hfound, rfl⟩ := Option.map_eq_some_iff.1 hline
    exact ⟨hpos, line, hfound, isDeclarationLine_iff.1 hholds, rfl⟩
  · rintro ⟨hpos, line, hline, hholds, rfl⟩
    refine ⟨(line.toList, n), List.mem_filter.2 ⟨?_, isDeclarationLine_iff.2 hholds⟩, rfl⟩
    refine List.mk_mem_zipIdx_iff_le_and_getElem?_sub.2 ⟨hpos, ?_⟩
    rw [List.getElem?_map, hline, Option.map_some]

/-- The numbers of declarations increase. -/
theorem pairwise_numberedLines (n : Nat) (lines : List (List Char)) :
    ((numberedLines n lines).map Prod.fst).Pairwise (· < ·) := by
  have hnumbers : (numberedLines n lines).map Prod.fst =
      ((lines.zipIdx n).filter fun p => isDeclarationLine (Text.trimChars p.1)).map Prod.snd := by
    rw [numberedLines_eq, List.map_map]
    rfl
  -- They are some of the numbers of all lines.
  have hsublist : ((numberedLines n lines).map Prod.fst).Sublist (List.range' n lines.length) := by
    rw [hnumbers, ← List.zipIdx_map_snd n lines]
    exact List.filter_sublist.map Prod.snd
  exact (List.pairwise_lt_range' 1).sublist hsublist

/-- The numbered declarations of lines are what a file has of them. -/
theorem numbersLines_numberedLines (lines : List String) :
    let found := numberedLines 1 (lines.map String.toList)
    NumbersLines lines { variants := found.map (·.2), lines := found.map (·.1) } := by
  intro found
  constructor
  case length_eq => rw [List.length_map, List.length_map]
  case ascending => exact pairwise_numberedLines 1 _
  case mem_lines_iff =>
    intro n
    rw [List.mem_map]
    constructor
    · rintro ⟨⟨m, decl⟩, hmem, rfl⟩
      obtain ⟨hpos, line, hline, hholds, -⟩ := mem_numberedLines_iff.1 hmem
      exact ⟨hpos, line, hline, hholds⟩
    · rintro ⟨hpos, line, hline, hholds⟩
      exact ⟨(n, Text.trim line), mem_numberedLines_iff.2 ⟨hpos, line, hline, hholds, rfl⟩, rfl⟩
  case getElem?_variants =>
    intro i
    rw [List.getElem?_map, List.getElem?_map]
    cases hi : found[i]? with
    | none => rfl
    | some p =>
      obtain ⟨-, line, hline, -, hdecl⟩ := mem_numberedLines_iff.1 (List.mem_of_getElem? hi)
      simp [hline, hdecl]
  case line_eq =>
    intro i h
    rw [line, if_neg (by omega), Int.toNat_natCast, List.getD_eq_getElem?_getD,
      List.getElem?_eq_getElem h, Option.getD_some]
  case line_eq_zero =>
    intro i h
    rw [line]
    split_ifs with hneg
    · rfl
    · rw [List.getD_eq_getElem?_getD, List.getElem?_eq_none (by omega), Option.getD_none]
  case eq_mk => rfl

/-- Reading a schema file of one declaration per line. It fails, for the reason that a line is too
long, exactly when some line of the text has 65536 octets or more, whether that line is a
declaration or not. Otherwise what is read numbers the lines of the text. -/
theorem ofContent_text (content : String) :
    match ofContent (some .text) content with
    | .error e => e.message = "text parse error: bufio.Scanner: token too long" ∧
        ∃ line ∈ Text.linesBetween content, 65536 ≤ line.utf8ByteSize
    | .ok f => (∀ line ∈ Text.linesBetween content, line.utf8ByteSize < 65536) ∧
        NumbersLines (Text.linesBetween content) f := by
  have hcut := (Text.map_toList_linesBetween content).symm
  generalize Text.linesBetween content = lines at hcut ⊢
  have hlong : ((Text.cutAt '\n' content.toList).any fun line =>
      lineLimit ≤ byteLength line) = true ↔ ∃ line ∈ lines, 65536 ≤ line.utf8ByteSize := by
    rw [hcut, List.any_map, List.any_eq_true]
    simp only [Function.comp_apply, byteLength_eq, String.ofList_toList, decide_eq_true_eq,
      lineLimit]
  rw [ofContent, ofLines?]
  dsimp only
  by_cases h : ∃ line ∈ lines, 65536 ≤ line.utf8ByteSize
  · rw [if_pos (hlong.2 h)]
    exact ⟨rfl, h⟩
  · rw [if_neg (mt hlong.1 h), hcut]
    refine ⟨fun line hline => ?_, numbersLines_numberedLines lines⟩
    by_contra hlt
    exact h ⟨line, hline, Nat.not_lt.1 hlt⟩

/-- Lines are counted over comments and blank lines, whatever ends them, and a last line needs no
line feed. -/
example : ofContent (some .text) "# fields\r\n\n  A : T x \r\n//\nB : T y" =
    .ok { variants := ["A : T x", "B : T y"], lines := [3, 5] } := by decide +kernel

end NodeFamily.SchemaFile
