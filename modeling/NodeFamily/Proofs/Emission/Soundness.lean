import Mathlib.Tactic.Tauto
import NodeFamily.Proofs.Emission.Lines
import NodeFamily.Proofs.Emission.ParameterSearch

/-!
# The pieces of a draft fit together

In a plain file every name is an identifier: those that the schema and the options bring along, the
result parameter (`isIdentifier_resultParam`), and the names of methods and constructors that are
made from variant names, which no keyword begins like (`isIdentifier_of_capital`). So each piece of
each line is well formed (`isSound_draftLines`), and whatever the types of the fields are, nothing
in a line sticks to its neighbour (`lineFits_draftLines`).
-/

namespace NodeFamily.Emission

open Layout (Piece NamedType TypeShape)

/-! ## Identifiers -/

/-- No keyword begins with the capitals that the names made by a file begin with. -/
theorem isIdentifier_of_capital {c : Char} (hc : c ∈ ['N', 'R', 'V']) {cs : List Char}
    (hcs : ∀ d ∈ cs, continuesIdentifier d = true) :
    isIdentifier (String.ofList (c :: cs)) = true := by
  have hopens : ∀ c ∈ ['N', 'R', 'V'], opensIdentifier c = true :=
    List.all_iff_forall_prop.1 (by decide)
  have hkeywords : ∀ c ∈ ['N', 'R', 'V'], ∀ k ∈ keywords, k.toList.head? ≠ some c :=
    List.all_iff_forall_prop.1 (by decide)
  have hnot : keywords.contains (String.ofList (c :: cs)) = false := by
    rw [List.contains_eq_mem, decide_eq_false_iff_not]
    intro hmem
    exact hkeywords c hc _ hmem (by simp)
  unfold isIdentifier
  rw [hnot, String.toList_ofList]
  simpa [hasIdentifierShape, hopens c hc] using hcs

/-- The characters of an identifier. -/
theorem continuesIdentifier_of_mem {n : String} (h : isIdentifier n = true) {c : Char}
    (hc : c ∈ n.toList) : continuesIdentifier c = true := by
  obtain ⟨-, -, -, -, hall⟩ :=
    Layout.exists_of_hasIdentifierShape (Piece.of_isIdentifier h).1
  exact hall c hc

/-- A digit can stand in an identifier. -/
theorem continuesIdentifier_of_isDigit {c : Char} (h : c.isDigit = true) :
    continuesIdentifier c = true := by
  have hall : ∀ n < 58, 48 ≤ n → continuesIdentifier (Char.ofNat n) = true := by decide
  simp only [Char.isDigit, Bool.and_eq_true, decide_eq_true_eq, UInt32.le_iff_toNat_le] at h
  have hcode := hall c.toNat (Nat.lt_succ_of_le h.2) h.1
  rwa [Char.ofNat_toNat] at hcode

/-- The result parameter is an identifier. -/
theorem isIdentifier_resultParam (s : Schema) : isIdentifier (resultParam s) = true := by
  rcases resultParam_cases s with hmem | ⟨n, hn⟩
  · have hall : ∀ n ∈ preferredParams, isIdentifier n = true := by decide
    exact hall _ hmem
  · have htext : numberedParam n = String.ofList ('R' :: (toString (n + 1)).toList) := by
      rw [← String.toList_inj]
      simp [numberedParam]
    rw [hn, htext]
    exact isIdentifier_of_capital (by simp) fun c hc =>
      continuesIdentifier_of_isDigit (Text.isDigit_of_mem_toString hc)

/-- The visitor method of a variant is an identifier. -/
theorem isIdentifier_visitMethod {v : VariantShape} (h : isIdentifier v.name = true) :
    isIdentifier v.visitMethod = true := by
  have htext : v.visitMethod =
      String.ofList ('V' :: ("isit".toList ++ v.name.toList ++ "Expr".toList)) := by
    rw [← String.toList_inj]
    simp [VariantShape.visitMethod]
  have hends : ∀ c ∈ "isit".toList ++ "Expr".toList, continuesIdentifier c = true :=
    List.all_iff_forall_prop.1 (by decide)
  rw [htext]
  refine isIdentifier_of_capital (by simp) fun c hc => ?_
  rcases List.mem_append.1 hc with hc | hc
  · rcases List.mem_append.1 hc with hc | hc
    · exact hends c (List.mem_append_left _ hc)
    · exact continuesIdentifier_of_mem h hc
  · exact hends c (List.mem_append_right _ hc)

/-- The constructor of a variant is an identifier. -/
theorem isIdentifier_constructor {n : String} (h : isIdentifier n = true) :
    isIdentifier ("New" ++ n) = true := by
  have htext : "New" ++ n = String.ofList ('N' :: ("ew".toList ++ n.toList)) := by
    rw [← String.toList_inj]
    simp
  have hends : ∀ c ∈ "ew".toList, continuesIdentifier c = true :=
    List.all_iff_forall_prop.1 (by decide)
  rw [htext]
  refine isIdentifier_of_capital (by simp) fun c hc => ?_
  rcases List.mem_append.1 hc with hc | hc
  · exact hends c hc
  · exact continuesIdentifier_of_mem h hc

/-! ## Shapes of identifiers -/

/-- A name is an identifier. -/
theorem isIdentifier_of_isName {n : String} (h : isName n = true) : isIdentifier n = true :=
  (Bool.and_eq_true_iff.1 h).1

/-- The pieces of a type are well formed. -/
def IsSoundType (t : TypeShape) : Prop := ∀ p ∈ typePieces t, p.IsSound

/-- The pieces of a type name are well formed. -/
theorem isSoundType_shapeOf {t : String} (h : isTypeName t = true) : IsSoundType (shapeOf t) := by
  simp only [isTypeName, Bool.and_eq_true, decide_eq_true_eq, List.all_eq_true] at h
  obtain ⟨hlength, hall⟩ := h
  have hbase : ∀ p ∈ basePieces (shapeOf t).base, p.IsSound := by
    -- There are one or two pieces between the dots, and their number is what the shape tells.
    have hjoin := Text.intercalate_cutAt '.' (typeBase t).toList
    unfold shapeOf
    dsimp only
    split
    · next p n hcut =>
      rw [hcut] at hall
      simp [basePieces, Piece.IsSound, Layout.closedSigns, Layout.openSigns,
        isIdentifier_of_isName (hall p (by simp)), isIdentifier_of_isName (hall n (by simp))]
    · next hnot =>
      rcases hcut : Text.cutAt '.' (typeBase t).toList with _ | ⟨a, _ | ⟨b, _ | ⟨c, rest⟩⟩⟩
      · exact absurd hcut (Text.cutAt_ne_nil _ _)
      · rw [hcut] at hall hjoin
        have hname : typeBase t = String.ofList a := by
          rw [← String.toList_inj, ← hjoin]
          simp
        simp [basePieces, Piece.IsSound, hname, isIdentifier_of_isName (hall a (by simp))]
      · exact absurd hcut (hnot a b)
      · rw [hcut] at hlength
        simp at hlength
  intro p hp
  rcases List.mem_append.1 hp with hp | hp
  · split_ifs at hp
    · obtain rfl := List.mem_singleton.1 hp
      simp [Piece.IsSound, Layout.openSigns]
    · exact absurd hp List.not_mem_nil
  · exact hbase p hp

/-- The shape of a field that is written with identifiers. -/
structure FieldShape.IsSound (f : FieldShape) : Prop where
  /-- The struct field has an identifier. -/
  ident : isIdentifier f.ident = true
  /-- The parameter is an identifier. -/
  param : isIdentifier f.param = true
  /-- The type is made of identifiers. -/
  type : IsSoundType f.type

/-- The shape of a variant that is written with identifiers. -/
structure VariantShape.IsSound (v : VariantShape) : Prop where
  /-- The name is an identifier. -/
  name : isIdentifier v.name = true
  /-- The fields are written with identifiers. -/
  fields : ∀ f ∈ v.fields, f.IsSound

/-- A plain variant is written with identifiers. -/
theorem isSound_of_isPlainVariant {exported : Bool} {v : Variant}
    (h : isPlainVariant exported v = true) {r : String} (hr : isIdentifier r = true) :
    (VariantShape.of exported r v).IsSound := by
  obtain ⟨hname, hfields⟩ := Bool.and_eq_true_iff.1 h
  refine ⟨hname, fun f hf => ?_⟩
  obtain ⟨g, hg, rfl⟩ := List.mem_map.1 hf
  have hplain := List.all_eq_true.1 hfields g hg
  simp only [isPlainField, Bool.and_eq_true, Bool.or_eq_true, beq_iff_eq] at hplain
  obtain ⟨⟨hparam, hident⟩, htype⟩ := hplain
  refine ⟨hident, hparam, ?_⟩
  unfold FieldShape.of
  dsimp only
  split_ifs with hkind
  · have hnode : isIdentifier nodeName = true := by decide
    simp [IsSoundType, typePieces, basePieces, Piece.IsSound, Layout.closedSigns, hr, hnode]
  · exact isSoundType_shapeOf (htype.resolve_left hkind)

/-! ## Lines of identifiers -/

/-- The lines of a block are well formed. -/
def AreSound (lines : List (List Piece)) : Prop := ∀ line ∈ lines, ∀ p ∈ line, p.IsSound

/-- The names that every file is written with are identifiers. -/
theorem isIdentifier_of_mem_fixed : ∀ n ∈ ["any", "e", "expr", "nil", "visitor", "_", nodeName,
    visitorName, acceptName], isIdentifier n = true := by
  decide

/-- What holds of all pieces of items with commas between them. -/
theorem forall_mem_commaSeparated {P : Piece → Prop} {items : List (List Piece)} :
    (∀ p ∈ VariantShape.commaSeparated items, P p) ↔
      (∀ item ∈ items, ∀ p ∈ item, P p) ∧ (1 < items.length → P (.sign ",") ∧ P (.blank ' ')) := by
  induction items with
  | nil => simp [VariantShape.commaSeparated]
  | cons item items ih =>
    cases items with
    | nil => simp [VariantShape.commaSeparated]
    | cons next items =>
      have hcons : VariantShape.commaSeparated (item :: next :: items) =
          item ++ [.sign ",", .blank ' '] ++ VariantShape.commaSeparated (next :: items) :=
        List.intercalate_cons_cons
      have hlength : 1 < (item :: next :: items).length := by simp
      rw [hcons, List.forall_mem_append, List.forall_mem_append, ih,
        List.forall_mem_cons (a := item), imp_iff_right hlength]
      simp only [List.forall_mem_cons (a := Piece.sign ","), List.forall_mem_singleton]
      tauto

/-- Pieces with commas between them are well formed when each item is. -/
theorem isSound_commaSeparated {items : List (List Piece)} (h : AreSound items) :
    ∀ p ∈ VariantShape.commaSeparated items, p.IsSound :=
  forall_mem_commaSeparated.2 ⟨h, fun _ => by simp [Piece.IsSound, Layout.closedSigns]⟩

namespace VariantShape

variable {r : String} {v : VariantShape}

/-- The method of the visitor interface is well formed. -/
theorem IsSound.visitorLine (hv : v.IsSound) (hr : isIdentifier r = true) :
    ∀ p ∈ v.visitorLine r, p.IsSound := by
  have hvisit := isIdentifier_visitMethod hv.name
  have hexpr := isIdentifier_of_mem_fixed "expr" (by simp)
  simp [VariantShape.visitorLine, applied, Piece.IsSound, Layout.closedSigns, Layout.openSigns,
    hr, hv.name, hvisit, hexpr]

/-- The struct is well formed. -/
theorem IsSound.structBlock (hv : v.IsSound) (hr : isIdentifier r = true) :
    AreSound (v.structBlock r) := by
  have hany := isIdentifier_of_mem_fixed "any" (by simp)
  have hfields : AreSound (v.fields.map fun f =>
      [.blank '\t', .name f.ident, .blank ' '] ++ typePieces f.type) := by
    intro line hline
    obtain ⟨f, hf, rfl⟩ := List.mem_map.1 hline
    refine List.forall_mem_append.2 ⟨?_, (hv.fields f hf).type⟩
    simp [Piece.IsSound, (hv.fields f hf).ident]
  refine List.forall_mem_append.2 ⟨List.forall_mem_append.2 ⟨?_, hfields⟩, ?_⟩
  · simp [Piece.IsSound, keywords, Layout.closedSigns, hr, hv.name, hany]
  · simp [Piece.IsSound, Layout.closedSigns]

/-- The check is well formed. -/
theorem IsSound.nodeBlock (hv : v.IsSound) : AreSound v.nodeBlock := by
  have hany := isIdentifier_of_mem_fixed "any" (by simp)
  have hnil := isIdentifier_of_mem_fixed "nil" (by simp)
  have hblank := isIdentifier_of_mem_fixed "_" (by simp)
  have hnode := isIdentifier_of_mem_fixed nodeName (by simp)
  simp [AreSound, VariantShape.nodeBlock, applied, Piece.IsSound, keywords, Layout.closedSigns,
    Layout.openSigns, hv.name, hany, hnil, hblank, hnode]

/-- The accepting method is well formed. -/
theorem IsSound.acceptBlock (hv : v.IsSound) (hr : isIdentifier r = true) :
    AreSound (v.acceptBlock r) := by
  have hvisit := isIdentifier_visitMethod hv.name
  have he := isIdentifier_of_mem_fixed "e" (by simp)
  have hvisitor := isIdentifier_of_mem_fixed "visitor" (by simp)
  have hVisitor := isIdentifier_of_mem_fixed visitorName (by simp)
  have haccept := isIdentifier_of_mem_fixed acceptName (by simp)
  simp [AreSound, VariantShape.acceptBlock, applied, Piece.IsSound, keywords, Layout.closedSigns,
    Layout.openSigns, hr, hv.name, hvisit, he, hvisitor, hVisitor, haccept]

/-- The constructor is well formed. -/
theorem IsSound.constructorBlock (hv : v.IsSound) (hr : isIdentifier r = true) :
    AreSound (v.constructorBlock r) := by
  have hany := isIdentifier_of_mem_fixed "any" (by simp)
  have hnew := isIdentifier_constructor hv.name
  have hparams : ∀ p ∈ v.parameters, p.IsSound := by
    refine isSound_commaSeparated fun item hitem => ?_
    obtain ⟨f, hf, rfl⟩ := List.mem_map.1 hitem
    refine List.forall_mem_append.2 ⟨?_, (hv.fields f hf).type⟩
    simp [Piece.IsSound, (hv.fields f hf).param]
  have hinits : ∀ p ∈ v.initialisers, p.IsSound := by
    refine isSound_commaSeparated fun item hitem => ?_
    obtain ⟨f, hf, rfl⟩ := List.mem_map.1 hitem
    simp [Piece.IsSound, Layout.openSigns, (hv.fields f hf).ident, (hv.fields f hf).param]
  refine List.forall_mem_cons.2 ⟨?_, List.forall_mem_cons.2 ⟨?_, ?_⟩⟩
  · simp only [constructorHead, List.forall_mem_append]
    refine ⟨?_, hparams, ?_, ?_, ?_⟩
    all_goals simp [applied, Piece.IsSound, keywords, Layout.closedSigns, Layout.openSigns, hr,
      hv.name, hany, hnew]
  · simp only [constructorReturn, List.forall_mem_append]
    refine ⟨?_, ?_, ?_, hinits, ?_⟩
    all_goals simp [applied, Piece.IsSound, keywords, Layout.closedSigns, Layout.openSigns, hr,
      hv.name]
  · simp [Piece.IsSound, Layout.closedSigns]

end VariantShape

/-- The blocks of a variant are well formed. -/
theorem VariantShape.IsSound.blocks {r : String} {v : VariantShape} (hv : v.IsSound)
    (hr : isIdentifier r = true) : ∀ block ∈ v.blocks r, AreSound block := by
  simp only [VariantShape.blocks, List.forall_mem_cons, List.not_mem_nil, false_implies,
    implies_true, and_true]
  exact ⟨hv.structBlock hr, hv.nodeBlock, hv.acceptBlock hr, hv.constructorBlock hr⟩

/-- The imports are well formed, whatever their paths are. -/
theorem areSound_importLines (paths : List String) :
    ∀ block ∈ importLines paths, AreSound block := by
  cases paths with
  | nil => simp [importLines]
  | cons p paths =>
    have hpaths : AreSound ((p :: paths).map fun p => [.blank '\t', .quoted p]) := by
      intro line hline
      obtain ⟨q, -, rfl⟩ := List.mem_map.1 hline
      simp [Piece.IsSound]
    refine List.forall_mem_singleton.2 (List.forall_mem_append.2
      ⟨List.forall_mem_append.2 ⟨?_, hpaths⟩, ?_⟩)
    · simp [Piece.IsSound, keywords, Layout.closedSigns]
    · simp [Piece.IsSound, Layout.closedSigns]

/-- The interface of all nodes is well formed. -/
theorem areSound_nodeLines {r : String} (hr : isIdentifier r = true) : AreSound (nodeLines r) := by
  have hany := isIdentifier_of_mem_fixed "any" (by simp)
  have hvisitor := isIdentifier_of_mem_fixed "visitor" (by simp)
  have hVisitor := isIdentifier_of_mem_fixed visitorName (by simp)
  have hnode := isIdentifier_of_mem_fixed nodeName (by simp)
  have haccept := isIdentifier_of_mem_fixed acceptName (by simp)
  have hfirst : (Piece.comment (nodeName ++
      " is implemented by every expression variant. Accept dispatches to the")).IsSound := by
    unfold Piece.IsSound Layout.IsPlainChar
    exact List.all_iff_forall_prop.1 (by decide +kernel)
  have hsecond : (Piece.comment (visitorName ++
      " method matching the concrete variant.")).IsSound := by
    unfold Piece.IsSound Layout.IsPlainChar
    exact List.all_iff_forall_prop.1 (by decide +kernel)
  refine List.forall_mem_cons.2 ⟨List.forall_mem_singleton.2 hfirst,
    List.forall_mem_cons.2 ⟨List.forall_mem_singleton.2 hsecond, ?_⟩⟩
  simp [Piece.IsSound, keywords, Layout.closedSigns, hr, hany, hvisitor, hVisitor, hnode, haccept]

/-- The interface of all visitors is well formed. -/
theorem areSound_visitorLines {r : String} (hr : isIdentifier r = true) {vs : List VariantShape}
    (hvs : ∀ v ∈ vs, v.IsSound) : AreSound (visitorLines r vs) := by
  have hany := isIdentifier_of_mem_fixed "any" (by simp)
  have hVisitor := isIdentifier_of_mem_fixed visitorName (by simp)
  have hcomment : (Piece.comment (visitorName ++
      " has one method per expression variant.")).IsSound := by
    unfold Piece.IsSound Layout.IsPlainChar
    exact List.all_iff_forall_prop.1 (by decide +kernel)
  have hmethods : AreSound (vs.map (VariantShape.visitorLine r)) := by
    intro line hline
    obtain ⟨v, hv, rfl⟩ := List.mem_map.1 hline
    exact (hvs v hv).visitorLine hr
  refine List.forall_mem_append.2 ⟨List.forall_mem_append.2 ⟨List.forall_mem_cons.2
    ⟨List.forall_mem_singleton.2 hcomment, ?_⟩, hmethods⟩, ?_⟩
  · simp [Piece.IsSound, keywords, Layout.closedSigns, hr, hany, hVisitor]
  · simp [Piece.IsSound, Layout.closedSigns]

/-! ## Pieces that fit -/

/-- Pieces that fit before anything that fits and does not begin with a word. -/
def FitsBefore (ps : List Piece) : Prop :=
  ∀ qs, Piece.fits qs = true → (Piece.name "").standsBefore qs.head? = true →
    Piece.fits (ps ++ qs) = true

/-- A name fits before whatever is no word. -/
theorem fitsBefore_name (n : String) : FitsBefore [.name n] := by
  intro qs hqs hword
  exact Bool.and_eq_true_iff.2 ⟨(Piece.standsBefore_name n _).trans hword, hqs⟩

/-- A type fits before whatever is no word. -/
theorem fitsBefore_typePieces (t : TypeShape) : FitsBefore (typePieces t) := by
  intro qs hqs hword
  have hclosing : Piece.fits (.sign "]" :: qs) = true := Bool.and_eq_true_iff.2 ⟨rfl, hqs⟩
  obtain ⟨starred, base⟩ := t
  cases base with
  | name n => cases starred <;> exact fitsBefore_name n qs hqs hword
  | member p n => cases starred <;> exact fitsBefore_name n qs hqs hword
  | applied n arg => cases starred <;> exact hclosing

/-- Items with commas between them fit when each item does. -/
theorem fitsBefore_commaSeparated {items : List (List Piece)}
    (h : ∀ item ∈ items, FitsBefore item) : FitsBefore (VariantShape.commaSeparated items) := by
  intro qs hqs hword
  induction items with
  | nil => exact hqs
  | cons item items ih =>
    rw [List.forall_mem_cons] at h
    cases items with
    | nil => simpa [VariantShape.commaSeparated] using h.1 qs hqs hword
    | cons next items =>
      rw [VariantShape.commaSeparated, List.intercalate_cons_cons, List.append_assoc,
        List.append_assoc]
      exact h.1 _ (ih h.2) rfl

/-- The lines of a block fit. -/
def AreFit (lines : List (List Piece)) : Prop := ∀ line ∈ lines, Piece.lineFits line = true

/-- The struct fits. -/
theorem areFit_structBlock (r : String) (v : VariantShape) : AreFit (v.structBlock r) := by
  have hfields : AreFit (v.fields.map fun f =>
      [.blank '\t', .name f.ident, .blank ' '] ++ typePieces f.type) := by
    intro line hline
    obtain ⟨f, -, rfl⟩ := List.mem_map.1 hline
    exact fitsBefore_typePieces f.type [.lineBreak] rfl rfl
  refine List.forall_mem_append.2 ⟨List.forall_mem_append.2 ⟨?_, hfields⟩, ?_⟩
  · exact List.forall_mem_singleton.2 rfl
  · exact List.forall_mem_singleton.2 rfl

/-- The constructor fits. -/
theorem areFit_constructorBlock (r : String) (v : VariantShape) :
    AreFit (v.constructorBlock r) := by
  have hparams : FitsBefore v.parameters := by
    refine fitsBefore_commaSeparated fun item hitem => ?_
    obtain ⟨f, -, rfl⟩ := List.mem_map.1 hitem
    exact fun qs hqs hword => fitsBefore_typePieces f.type qs hqs hword
  have hinits : FitsBefore v.initialisers := by
    refine fitsBefore_commaSeparated fun item hitem => ?_
    obtain ⟨f, -, rfl⟩ := List.mem_map.1 hitem
    exact fun qs hqs hword => fitsBefore_name f.param qs hqs hword
  refine List.forall_mem_cons.2 ⟨?_, List.forall_mem_cons.2 ⟨?_, List.forall_mem_singleton.2 rfl⟩⟩
  · simp only [Piece.lineFits, VariantShape.constructorHead, List.append_assoc]
    exact hparams _ rfl rfl
  · simp only [Piece.lineFits, VariantShape.constructorReturn, List.append_assoc]
    exact hinits _ rfl rfl

/-- The blocks of a variant fit. -/
theorem areFit_blocks (r : String) (v : VariantShape) : ∀ block ∈ v.blocks r, AreFit block := by
  simp only [VariantShape.blocks, List.forall_mem_cons, List.not_mem_nil, false_implies,
    implies_true, and_true]
  refine ⟨areFit_structBlock r v, ?_, ?_, areFit_constructorBlock r v⟩
  · exact List.forall_mem_singleton.2 rfl
  · simp only [VariantShape.acceptBlock, AreFit, List.forall_mem_cons]
    exact ⟨rfl, rfl, rfl, by simp⟩

/-- The imports fit. -/
theorem areFit_importLines (paths : List String) : ∀ block ∈ importLines paths, AreFit block := by
  cases paths with
  | nil => simp [importLines]
  | cons p paths =>
    have hpaths : AreFit ((p :: paths).map fun p => [.blank '\t', .quoted p]) := by
      intro line hline
      obtain ⟨q, -, rfl⟩ := List.mem_map.1 hline
      rfl
    refine List.forall_mem_singleton.2 (List.forall_mem_append.2
      ⟨List.forall_mem_append.2 ⟨?_, hpaths⟩, ?_⟩)
    · exact List.forall_mem_singleton.2 rfl
    · exact List.forall_mem_singleton.2 rfl

/-- The interface of all visitors fits. -/
theorem areFit_visitorLines (r : String) (vs : List VariantShape) : AreFit (visitorLines r vs) := by
  have hmethods : AreFit (vs.map (VariantShape.visitorLine r)) := by
    intro line hline
    obtain ⟨v, -, rfl⟩ := List.mem_map.1 hline
    rfl
  refine List.forall_mem_append.2 ⟨List.forall_mem_append.2 ⟨?_, hmethods⟩, ?_⟩
  · exact List.forall_mem_cons.2 ⟨rfl, List.forall_mem_singleton.2 rfl⟩
  · exact List.forall_mem_singleton.2 rfl

/-! ## The lines of a draft -/

/-- What holds of the lines of all blocks and of an empty line holds of the lines of the blocks with
empty lines between them. -/
theorem forall_mem_intercalate {α : Type} {P : α → Prop} {empty : α} {blocks : List (List α)}
    (hempty : P empty) (h : ∀ block ∈ blocks, ∀ line ∈ block, P line) :
    ∀ line ∈ List.intercalate [empty] blocks, P line := by
  induction blocks with
  | nil => simp
  | cons block blocks ih =>
    rw [List.forall_mem_cons] at h
    cases blocks with
    | nil => simpa using h.1
    | cons next blocks =>
      rw [List.intercalate_cons_cons]
      refine List.forall_mem_append.2 ⟨List.forall_mem_append.2 ⟨h.1, ?_⟩, ih h.2⟩
      exact List.forall_mem_singleton.2 hempty

/-- What holds of the lines of all parts of a draft holds of all lines of the draft. -/
theorem SourceFile.forall_mem_draftLines {f : SourceFile} {P : List Piece → Prop} (hempty : P [])
    (hheader : P [.comment ("Code generated by " ++ f.generatorName.shown ++ ". DO NOT EDIT.")])
    (hblocks : ∀ block ∈ f.draftBlocks, ∀ line ∈ block, P line) :
    ∀ line ∈ f.draftLines, P line := by
  refine List.forall_mem_cons.2 ⟨hheader, List.forall_mem_cons.2 ⟨hempty, ?_⟩⟩
  refine List.forall_mem_append.2 ⟨forall_mem_intercalate hempty hblocks, ?_⟩
  exact List.forall_mem_singleton.2 hempty

/-- Nothing in a line of a draft sticks to its neighbour. -/
theorem SourceFile.lineFits_draftLines (f : SourceFile) :
    ∀ line ∈ f.draftLines, Piece.lineFits line = true := by
  refine SourceFile.forall_mem_draftLines rfl rfl ?_
  simp only [SourceFile.draftBlocks, List.forall_mem_append, List.forall_mem_cons]
  refine ⟨⟨⟨?_, areFit_importLines _⟩, ?_, areFit_visitorLines _ _, by simp⟩, ?_⟩
  · exact List.forall_mem_singleton.2 rfl
  · simp only [nodeLines, List.forall_mem_cons]
    exact ⟨rfl, rfl, rfl, rfl, rfl, by simp⟩
  · intro block hblock
    obtain ⟨v, -, hblock⟩ := List.mem_flatMap.1 hblock
    exact areFit_blocks _ v block hblock

/-- The generator's name is plain when it is a text that stays on its line and has no forbidden
character in it. -/
theorem SourceFile.hasPlainGenerator_iff {f : SourceFile} :
    f.hasPlainGenerator = true ↔ ∃ name, f.generatorName.text? = some name ∧
      ∀ c ∈ name.toList, c ≠ '\n' ∧ Layout.isForbidden c = false := by
  simp [SourceFile.hasPlainGenerator, Option.any_eq_true, List.all_eq_true]

/-- The generator's name is a text in a plain file. -/
theorem SourceFile.exists_generatorName {f : SourceFile} (h : f.isPlain = true) :
    ∃ name, f.generatorName.text? = some name ∧
      ∀ c ∈ name.toList, c ≠ '\n' ∧ Layout.isForbidden c = false :=
  hasPlainGenerator_iff.1 (Bool.and_eq_true_iff.1 (Bool.and_eq_true_iff.1 h).1).1

/-- The package of a plain file is an identifier. -/
theorem SourceFile.isIdentifier_package {f : SourceFile} (h : f.isPlain = true) :
    isIdentifier f.package = true :=
  (Bool.and_eq_true_iff.1 (Bool.and_eq_true_iff.1 h).1).2

/-- The variants of a plain file are written with identifiers. -/
theorem SourceFile.isSound_shapes {f : SourceFile} (h : f.isPlain = true) :
    ∀ v ∈ f.shapes, v.IsSound := by
  refine List.forall_mem_map.2 fun v hv => ?_
  have hvariants := List.all_eq_true.1 (Bool.and_eq_true_iff.1 h).2
  exact isSound_of_isPlainVariant (hvariants v hv) (isIdentifier_resultParam f.schema)

/-- Each piece of a draft of a plain file is well formed. -/
theorem SourceFile.isSound_draftLines {f : SourceFile} (h : f.isPlain = true) :
    ∀ line ∈ f.draftLines, ∀ p ∈ line, p.IsSound := by
  obtain ⟨name, hname, hgenerator⟩ := SourceFile.exists_generatorName h
  have hpackage := SourceFile.isIdentifier_package h
  have hr := isIdentifier_resultParam f.schema
  have hshapes := SourceFile.isSound_shapes h
  refine SourceFile.forall_mem_draftLines (by simp) ?_ ?_
  · simp only [List.forall_mem_singleton, Piece.IsSound, String.toList_append,
      List.forall_mem_append, Text.Raw.shown_eq hname]
    have hends : ∀ c ∈ "Code generated by ".toList ++ ". DO NOT EDIT.".toList,
        Layout.IsPlainChar c := by
      unfold Layout.IsPlainChar
      exact List.all_iff_forall_prop.1 (by decide +kernel)
    refine ⟨⟨fun c hc => hends c (List.mem_append_left _ hc), ?_⟩, fun c hc =>
      hends c (List.mem_append_right _ hc)⟩
    intro c hc
    simpa [Layout.IsPlainChar] using hgenerator c hc
  · simp only [SourceFile.draftBlocks, List.forall_mem_append, List.forall_mem_cons]
    refine ⟨⟨⟨?_, areSound_importLines _⟩, areSound_nodeLines hr, areSound_visitorLines hr hshapes,
      by simp⟩, ?_⟩
    · simp [Piece.IsSound, packageLines, keywords, hpackage]
    · intro block hblock
      obtain ⟨v, hv, hblock⟩ := List.mem_flatMap.1 hblock
      exact (hshapes v hv).blocks hr block hblock

/-- The opening comment of a plain file is one line. -/
theorem SourceFile.not_mem_header {f : SourceFile} (h : f.isPlain = true) :
    '\n' ∉ f.header.toList := by
  have hgenerator : '\n' ∉ f.generatorName.toList := by
    obtain ⟨name, hname, hgenerator⟩ := exists_generatorName h
    rw [Text.Raw.toList, Text.Raw.shown_eq hname]
    exact fun hmem => (hgenerator _ hmem).1 rfl
  have hends : '\n' ∉ headerStart.toList ++ headerEnd.toList := by decide
  unfold header headerText
  simp only [String.toList_ofList, String.toList_append, List.mem_filter, List.mem_append,
    not_and_or, not_or] at hends ⊢
  exact .inl ⟨⟨hends.1, hgenerator⟩, hends.2⟩

end NodeFamily.Emission
