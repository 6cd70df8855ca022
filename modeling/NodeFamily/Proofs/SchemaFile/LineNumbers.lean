import Mathlib.Data.List.Basic
import NodeFamily.SchemaFile.Content

/-!
# Which declarations have line numbers

A schema file of one declaration per line keeps the line of each declaration, and the line holds
that declaration (`line_of_ofLines?`). The structured formats keep no lines at all
(`lines_of_ofContent`).

Reading a structured file fills in settings one by one, and none of them is the lines. So it is
enough to follow the settings through each of the readers: the members of a TOML document and of a
JSON object come one after the other, and YAML merges mappings into one another, where it is the
rules for its readings (`Yaml.Reading.Returns`) that carry the fact along.
-/

namespace NodeFamily

namespace SchemaFile

/-! ## Lines of text -/

/-- Whether a line of text holds a declaration. -/
def holdsDeclaration (line : List Char) : Bool := isDeclarationLine (Text.trimChars line)

/-- A numbered declaration is a line, counted from the first number, that holds a declaration, with
as many others before it as there are before the declaration. -/
theorem exists_line_of_numberedLines {n : Nat} {lines : List (List Char)} {i m : Nat}
    {decl : String} (h : (numberedLines n lines)[i]? = some (m, decl)) :
    ∃ k line, m = n + k ∧ lines[k]? = some line ∧ decl = String.ofList (Text.trimChars line) ∧
      holdsDeclaration line = true ∧ (lines.take k).countP holdsDeclaration = i := by
  induction lines generalizing n i with
  | nil => simp [numberedLines] at h
  | cons line lines ih =>
    rw [numberedLines] at h
    split_ifs at h with hline
    · cases i with
      | zero =>
        obtain ⟨rfl, rfl⟩ := Prod.mk.inj (Option.some.inj h)
        exact ⟨0, line, rfl, rfl, rfl, hline, rfl⟩
      | succ i =>
        obtain ⟨k, found, rfl, hk, hdecl, hholds, hcount⟩ := ih h
        refine ⟨k + 1, found, by omega, hk, hdecl, hholds, ?_⟩
        rw [List.take_succ_cons, List.countP_cons_of_pos (p := holdsDeclaration) hline, hcount]
    · obtain ⟨k, found, rfl, hk, hdecl, hholds, hcount⟩ := ih h
      refine ⟨k + 1, found, by omega, hk, hdecl, hholds, ?_⟩
      rw [List.take_succ_cons, List.countP_cons_of_neg (p := holdsDeclaration) hline, hcount]

/-- Line `n` of a text holds a declaration as its `i`-th one: without white space at its ends it is
that declaration, and `i` lines before it hold declarations. Lines count from one and declarations
from zero. -/
def StandsOn (content : String) (i : Nat) (decl : String) (n : Nat) : Prop :=
  let lines := Text.cutAt '\n' content.toList
  0 < n ∧ ∃ line, lines[n - 1]? = some line ∧ Text.trim (String.ofList line) = decl ∧
    (lines.take (n - 1)).countP holdsDeclaration = i

/-- A file of lines has a line for each of its declarations and for nothing else, and that line
holds it. -/
theorem line_of_ofLines? {content : String} {f : SchemaFile} (h : ofLines? content = some f)
    (i : Nat) :
    match f.variants[i]? with
    | some decl => StandsOn content i decl (f.line i)
    | none => f.line i = 0 := by
  unfold ofLines? at h
  dsimp only at h
  split_ifs at h
  obtain rfl := Option.some.inj h
  simp only [line, List.getElem?_map, List.getD_eq_getElem?_getD, Int.toNat_natCast]
  rw [if_neg (by omega)]
  cases hfound : (numberedLines 1 (Text.cutAt '\n' content.toList))[i]? with
  | none => rfl
  | some found =>
    obtain ⟨k, line, hnumber, hk, hdecl, -, hcount⟩ := exists_line_of_numberedLines hfound
    simp only [Option.map_some, Option.getD_some, hnumber]
    refine ⟨by omega, line, ?_, ?_, ?_⟩
    · rwa [Nat.add_sub_cancel_left]
    · rw [hdecl, Text.trim, String.toList_ofList]
    · rwa [Nat.add_sub_cancel_left]

/-! ## Settings -/

@[simp]
theorem lines_setText (f : SchemaFile) (s : Setting) (value : Text.Raw) :
    (f.setText s value).lines = f.lines := by cases s <;> rfl

@[simp]
theorem lines_setList (f : SchemaFile) (s : Setting) (value : List String) :
    (f.setList s value).lines = f.lines := by cases s <;> rfl

@[simp]
theorem lines_setFlag (f : SchemaFile) (s : Setting) (value : Bool) :
    (f.setFlag s value).lines = f.lines := by cases s <;> rfl

end SchemaFile

/-! ## TOML -/

namespace Toml

/-- Giving a setting its value keeps the lines. -/
theorem lines_of_give? {f g : SchemaFile} {s : Setting} {node : Node}
    (h : give? f s node = some g) : g.lines = f.lines := by
  unfold give? at h
  split at h
  · obtain rfl := Option.some.inj h
    exact f.lines_setText s _
  · obtain rfl := Option.some.inj h
    exact f.lines_setFlag s _
  · obtain ⟨items, -, rfl⟩ := Option.map_eq_some_iff.1 h
    exact f.lines_setList s _
  · exact absurd h (by simp)

/-- Giving all settings their values keeps the lines. -/
theorem lines_of_giveAll? {members : Members} {f g : SchemaFile} (h : giveAll? f members = some g) :
    g.lines = f.lines := by
  induction members generalizing f with
  | nil =>
    obtain rfl := Option.some.inj h
    rfl
  | cons member members ih =>
    rw [giveAll?] at h
    split at h
    · exact ih h
    · obtain ⟨given, hgiven, hrest⟩ := Option.bind_eq_some_iff.1 h
      exact (ih hrest).trans (lines_of_give? hgiven)

end Toml

/-! ## JSON -/

namespace Json

/-- Reading a member keeps the lines. -/
theorem lines_of_readMember? {f g : SchemaFile} {s? : Option Setting} {cs rest : List Char}
    (h : readMember? f s? cs = some (g, rest)) : g.lines = f.lines := by
  unfold readMember? at h
  split at h
  · obtain ⟨after, -, heq⟩ := Option.map_eq_some_iff.1 h
    obtain ⟨rfl, -⟩ := Prod.mk.inj heq
    rfl
  · split at h
    · obtain ⟨⟨value?, after⟩, -, heq⟩ := Option.map_eq_some_iff.1 h
      obtain ⟨rfl, -⟩ := Prod.mk.inj heq
      cases value? <;> simp
    · obtain ⟨⟨value?, after⟩, -, heq⟩ := Option.map_eq_some_iff.1 h
      obtain ⟨rfl, -⟩ := Prod.mk.inj heq
      cases value? <;> simp
    · obtain ⟨⟨value, after⟩, -, heq⟩ := Option.map_eq_some_iff.1 h
      obtain ⟨rfl, -⟩ := Prod.mk.inj heq
      simp

/-- Reading all members keeps the lines. -/
theorem lines_of_readMembers? {fuel : Nat} {f g : SchemaFile} {cs rest : List Char}
    (h : readMembers? fuel f cs = some (g, rest)) : g.lines = f.lines := by
  induction fuel generalizing f cs with
  | zero => simp [readMembers?] at h
  | succ fuel ih =>
    rw [readMembers?] at h
    split at h
    · split at h
      · simp at h
      · split at h
        · split at h
          · simp at h
          · next read _ hread =>
            have hmember := lines_of_readMember? hread
            split at h
            · obtain ⟨rfl, -⟩ := Prod.mk.inj (Option.some.inj h)
              exact hmember
            · exact (ih h).trans hmember
            · simp at h
        · simp at h
    · simp at h

/-- Reading an object leaves no lines. -/
theorem lines_of_readObject? {g : SchemaFile} {cs rest : List Char}
    (h : readObject? cs = some (g, rest)) : g.lines = [] := by
  unfold readObject? at h
  split at h
  · split at h
    · obtain ⟨rfl, -⟩ := Prod.mk.inj (Option.some.inj h)
      rfl
    · exact lines_of_readMembers? h
  · obtain ⟨after, -, heq⟩ := Option.map_eq_some_iff.1 h
    obtain ⟨rfl, -⟩ := Prod.mk.inj heq
    rfl

end Json

/-! ## YAML -/

namespace Yaml.Reading

variable {α β : Type}

/-- A reading returns only answers with a property. -/
def Returns (m : Reading α) (P : α → Prop) : Prop := ∀ e a e', m e = some (a, e') → P a

/-- An answer at once. -/
theorem Returns.pure {P : α → Prop} {a : α} (h : P a) : Returns (pure a) P := by
  intro e b e' hrun
  obtain ⟨rfl, -⟩ := Prod.mk.inj (Option.some.inj hrun)
  exact h

/-- Failing returns nothing. -/
theorem returns_fail {P : α → Prop} : Returns fail P := fun _ _ _ h => by simp [fail] at h

/-- A reading that goes on after another one. -/
theorem Returns.bind {m : Reading α} {f : α → Reading β} {P : α → Prop} {Q : β → Prop}
    (hm : Returns m P) (hf : ∀ a, P a → Returns (f a) Q) : Returns (m >>= f) Q := by
  intro e b e' hrun
  obtain ⟨⟨a, e₁⟩, ha, hb⟩ := Option.bind_eq_some_iff.1 hrun
  exact hf a (hm e a e₁ ha) e₁ b e' hb

/-- A reading that goes on after another one, of whose answers nothing is known. -/
theorem Returns.after {m : Reading α} {f : α → Reading β} {Q : β → Prop}
    (hf : ∀ a, Returns (f a) Q) : Returns (m >>= f) Q :=
  Returns.bind (P := fun _ => True) (fun _ _ _ _ => trivial) fun a _ => hf a

/-- A reading for each item of a list in turn, each of which keeps a property. -/
theorem Returns.foldlM {step : β → α → Reading β} {P : β → Prop}
    (hstep : ∀ b a, P b → Returns (step b a) P) (items : List α) {b : β} (hb : P b) :
    Returns (items.foldlM step b) P := by
  induction items generalizing b with
  | nil => exact .pure hb
  | cons a items ih =>
    rw [List.foldlM_cons]
    exact (hstep b a hb).bind fun c hc => ih hc

/-- Giving a setting its value keeps the lines. -/
theorem returns_give (inAlias : Bool) (f : SchemaFile) (s : Setting) (node : Node) :
    Returns (give inAlias f s node) (·.lines = f.lines) := by
  unfold give
  split
  · exact .after fun v? => .pure (by cases v? <;> simp)
  · exact .after fun v? => .pure (by cases v? <;> simp)
  · exact .after fun v => .pure (by simp)

/-- Reading an entry keeps the lines. -/
theorem returns_entry (inAlias : Bool) (p : Progress) (key value : Node) :
    Returns (entry inAlias p key value) (·.file.lines = p.file.lines) := by
  unfold entry
  refine .after fun name? => ?_
  split
  · exact .pure rfl
  · split_ifs
    · exact .pure rfl
    · dsimp only
      split
      · exact .pure rfl
      · split_ifs
        · exact returns_fail
        · exact (returns_give inAlias _ _ value).bind fun g hg => .pure hg

/-- Reading all entries keeps the lines. -/
theorem returns_entries (inAlias : Bool) (p : Progress) (es : List (Node × Node)) :
    Returns (entries inAlias p es) (·.file.lines = p.file.lines) := by
  refine Returns.foldlM (P := fun q : Progress => q.file.lines = p.file.lines)
    (fun q e hq => ?_) _ rfl
  exact fun e₁ a e₂ hrun => (returns_entry inAlias q e.1 e.2 e₁ a e₂ hrun).trans hq

/-- Reading a mapping and those that it merges in keeps the lines. -/
theorem returns_mapping (fuel : Nat) (inAlias : Bool) (f : SchemaFile)
    (taken : Option (List String)) (es : List (Node × Node)) :
    Returns (mapping fuel inAlias f taken es) (·.1.lines = f.lines) := by
  induction fuel generalizing inAlias f taken es with
  | zero => exact returns_fail
  | succ fuel ih =>
    rw [mapping]
    split_ifs
    · exact Returns.bind (P := fun _ => False) returns_fail fun _ hnone => hnone.elim
    · refine (returns_entries inAlias ⟨f, taken, []⟩ es).bind fun p hp => ?_
      split
      · exact .pure hp
      · -- What is merged in is read by the same rules, from the settings read so far.
        have hread : ∀ acc : SchemaFile × Option (List String), acc.1.lines = f.lines →
            ∀ inAlias es, Returns (mapping fuel inAlias acc.1 acc.2 es) (·.1.lines = f.lines) :=
          fun acc hacc inAlias es e x e' hrun => (ih inAlias acc.1 acc.2 es e x e' hrun).trans hacc
        dsimp only
        split
        · refine .after fun _ => (Returns.foldlM
            (P := fun acc : SchemaFile × Option (List String) => acc.1.lines = f.lines)
            (fun acc node hacc => .after fun target => ?_) _ hp).bind fun merged hmerged =>
              .pure hmerged
          split
          · exact hread acc hacc _ _
          · exact returns_fail
        · refine .after fun _ => .after fun _ => (Returns.foldlM
            (P := fun acc : SchemaFile × Option (List String) => acc.1.lines = f.lines)
            (fun acc node hacc => .after fun target => ?_) _ hp).bind fun merged hmerged =>
              .pure hmerged
          split
          · exact hread acc hacc _ _
          · exact returns_fail

/-- The root of a document leaves no lines. -/
theorem returns_root (fuel : Nat) (node : Node) : Returns (root fuel node) (·.lines = []) := by
  unfold root
  refine .after fun _ => .after fun target => ?_
  split
  · exact (returns_mapping fuel false {} none _).bind fun g hg => .pure hg
  · refine .after fun meaning => ?_
    split
    · exact .pure rfl
    · exact returns_fail
  · exact returns_fail

end Yaml.Reading

/-! ## All formats -/

namespace SchemaFile

/-- What did not fail was read. -/
theorem orFail_eq_ok_iff {e : Unreadable} {f? : Option SchemaFile} {f : SchemaFile} :
    orFail e f? = .ok f ↔ f? = some f := by
  cases f? with
  | none => simp [orFail]
  | some g => simp [orFail]

/-- A structured file has no lines. -/
theorem lines_of_ofContent {format : Format} (hformat : format ≠ .text) {content : String}
    {f : SchemaFile} (h : ofContent (some format) content = .ok f) : f.lines = [] := by
  cases format with
  | text => exact absurd rfl hformat
  | yaml =>
    obtain ⟨node, -, hroot⟩ := Option.bind_eq_some_iff.1 (orFail_eq_ok_iff.1 h)
    obtain ⟨⟨g, e⟩, hrun, rfl⟩ := Option.map_eq_some_iff.1 hroot
    exact Yaml.Reading.returns_root _ node _ _ _ hrun
  | json =>
    have hjson := orFail_eq_ok_iff.1 h
    unfold ofJson? at hjson
    split at hjson
    · next g rest hread =>
      split_ifs at hjson
      obtain rfl := Option.some.inj hjson
      exact Json.lines_of_readObject? hread
    · simp at hjson
  | toml =>
    obtain ⟨members, -, hgive⟩ := Option.bind_eq_some_iff.1 (orFail_eq_ok_iff.1 h)
    exact Toml.lines_of_giveAll? hgive

end SchemaFile

end NodeFamily
