import NodeFamily.Proofs.Emission.Refusal
import NodeFamily.Proofs.LineReading

/-!
# The outline of an emitted file

What a file declares, read off its lines. Each block of a plain file is read to the items that the
block is for: names are found between the characters that they are cut at, because no such character
stands in an identifier (`not_mem_of_isIdentifier`), and lines stay lines, because no line break is
written inside of one (`areLines_blocks`). `items_generateSchema` puts this together for every text
that is generated.
-/

namespace NodeFamily

open Outline

namespace Emission

open Layout (Piece)

/-! ## Texts without the marks of a reader -/

/-- The characters that a line is cut at. -/
def marks : List Char :=
  ['[', ']', '(', ')', '\x7b', '\x7d', '*', '&', '.', ',', ':', ' ', '\n']

/-- No mark stands in an identifier. -/
theorem not_mem_of_isIdentifier {n : String} (h : isIdentifier n = true) :
    ∀ c ∈ marks, c ∉ n.toList := by
  have hmarks : ∀ c ∈ marks, continuesIdentifier c = false := List.all_iff_forall_prop.1 (by decide)
  intro c hc hmem
  have hcont := continuesIdentifier_of_mem h hmem
  rw [hmarks c hc] at hcont
  exact absurd hcont Bool.false_ne_true

/-- What the fields of a variant have to be written with to be told apart. -/
structure FieldSource.IsReadable (f : FieldSource) : Prop where
  /-- The struct field has an identifier. -/
  ident : isIdentifier f.ident = true
  /-- The parameter is an identifier. -/
  param : isIdentifier f.param = true
  /-- No character ends the type before its end. -/
  type : ∀ c ∈ [' ', ',', ')', '\n'], c ∉ f.type.toList

/-- What a variant has to be written with to be told from the text around it. -/
structure VariantSource.IsReadable (v : VariantSource) : Prop where
  /-- The name is an identifier. -/
  name : isIdentifier v.name = true
  /-- The fields can be told apart. -/
  fields : ∀ f ∈ v.fields, f.IsReadable

/-- No mark stands in a type name but a star and a dot. -/
theorem not_mem_of_isTypeName {t : String} (h : isTypeName t = true) {c : Char} (hc : c ∈ marks)
    (hsign : c ∉ ['*', '.']) : c ∉ t.toList := by
  have hname : ∀ {n}, isName n = true → c ∉ n.toList := fun hn =>
    not_mem_of_isIdentifier (isIdentifier_of_isName hn) c hc
  simp only [List.mem_cons, List.not_mem_nil, or_false, not_or] at hsign
  obtain ⟨star, hstar, heq⟩ := exists_star t
  have hbase : c ∉ (typeBase t).toList := by
    have hshape := isTypeName_iff.1 h
    generalize typeBase t = base at hshape
    cases hshape with
    | name hn => exact hname hn
    | member hp hn => simp [hname hp, hname hn, hsign]
  rw [heq]
  rcases hstar with rfl | rfl
  · simpa using hbase
  · simpa [hsign] using hbase

/-- The type of a plain field has no character in it that ends it. -/
theorem not_mem_fieldType {r : String} (hr : isIdentifier r = true) {f : Field}
    (h : f.kind = .recursive ∨ isTypeName f.type = true) :
    ∀ c ∈ [' ', ',', ')', '\n'], c ∉ (fieldType r f).toList := by
  have hmarks : ∀ c ∈ [' ', ',', ')', '\n'], c ∈ marks := List.all_iff_forall_prop.1 (by decide)
  have hsigns : ∀ c ∈ [' ', ',', ')', '\n'], c ∉ ['*', '.', '[', ']'] :=
    List.all_iff_forall_prop.1 (by decide)
  have hname : isIdentifier nodeName = true := by decide
  intro c hc
  have hmark := hmarks c hc
  have hsign := hsigns c hc
  simp only [List.mem_cons, List.not_mem_nil, or_false, not_or] at hsign
  have hresult := not_mem_of_isIdentifier hr c hmark
  have hnode := not_mem_of_isIdentifier hname c hmark
  unfold fieldType
  split_ifs with hkind
  · simp [hnode, hresult, hsign]
  · exact not_mem_of_isTypeName (h.resolve_left hkind) hmark (by simp [hsign])

/-- A plain variant can be read. -/
theorem isReadable_of_isPlainVariant {exported : Bool} {v : Variant}
    (h : isPlainVariant exported v = true) {r : String} (hr : isIdentifier r = true) :
    (VariantSource.of exported r v).IsReadable := by
  obtain ⟨hname, hfields⟩ := Bool.and_eq_true_iff.1 h
  refine ⟨hname, fun f hf => ?_⟩
  obtain ⟨g, hg, rfl⟩ := List.mem_map.1 hf
  have hplain := List.all_eq_true.1 hfields g hg
  simp only [isPlainField, Bool.and_eq_true, Bool.or_eq_true, beq_iff_eq] at hplain
  exact ⟨hplain.1.2, hplain.1.1, not_mem_fieldType hr hplain.2⟩

/-! ## Blocks -/

section Blocks

variable {r : String} {v : VariantSource}

/-- The visitor method of a variant is an identifier. -/
theorem VariantSource.IsReadable.visitMethod (hv : v.IsReadable) :
    isIdentifier v.visitMethod = true :=
  isIdentifier_visitMethod (v := ⟨v.name, []⟩) hv.name

/-- The method of the visitor interface is read with the variant that it takes. -/
theorem readMethod_visitorLine (hv : v.IsReadable) :
    Item.readMethod (v.visitorLine r) = (v.visitMethod, "*" ++ v.name) := by
  have hmethod := not_mem_of_isIdentifier hv.visitMethod
  have hname := not_mem_of_isIdentifier hv.name
  have hfirst : (v.visitorLine r).toList.drop 1 =
      v.visitMethod.toList ++ '(' :: ("expr *" ++ v.applied r ++ ") " ++ r).toList := by
    simp [VariantSource.visitorLine]
  have hsecond : (v.visitorLine r).toList = ("\t" ++ v.visitMethod ++ "(expr").toList ++
      ' ' :: (("*" ++ v.name).toList ++ '[' :: (r ++ "]) " ++ r).toList) := by
    simp [VariantSource.visitorLine, VariantSource.applied]
  have hspace : ' ' ∉ ("\t" ++ v.visitMethod ++ "(expr").toList := by
    simp [hmethod ' ' (by decide)]
  have hbracket : '[' ∉ ("*" ++ v.name).toList := by simp [hname '[' (by decide)]
  rw [Item.readMethod, hfirst, upTo_append (hmethod '(' (by decide)), hsecond,
    after_append hspace, upTo_append hbracket, String.ofList_toList, String.ofList_toList]

/-- A line that begins with a tab neither declares something nor ends a body. -/
theorem isBodyLine {line : String} (h : line.toList.head? = some '\t') :
    Opening.of? line = none ∧ line ≠ "\x7d" := by
  refine ⟨Opening.of?_eq_none h (by decide), ?_⟩
  rintro rfl
  exact absurd h (by decide)

/-- The name of a type before its type parameter. -/
theorem upTo_typeHead {name : String} (hname : isIdentifier name = true) (r tail : String) :
    upTo '[' (name ++ "[" ++ r ++ " any]" ++ tail).toList = name.toList := by
  have htext : (name ++ "[" ++ r ++ " any]" ++ tail).toList =
      name.toList ++ '[' :: (r ++ " any]" ++ tail).toList := by simp
  rw [htext, upTo_append (not_mem_of_isIdentifier hname '[' (by decide))]

/-- What follows the type parameter of a type. -/
theorem after_typeHead {name : String} (hname : isIdentifier name = true)
    (hr : isIdentifier r = true) (tail : String) :
    after ']' (name ++ "[" ++ r ++ " any]" ++ tail).toList = tail.toList := by
  have htext : (name ++ "[" ++ r ++ " any]" ++ tail).toList =
      (name ++ "[" ++ r ++ " any").toList ++ ']' :: tail.toList := by simp
  have hbracket : ']' ∉ (name ++ "[" ++ r ++ " any").toList := by
    simp [not_mem_of_isIdentifier hname ']' (by decide),
      not_mem_of_isIdentifier hr ']' (by decide)]
  rw [htext, after_append hbracket]

/-- The lines of an interface show it with its methods. -/
theorem shows_interface {name : String} (hname : isIdentifier name = true)
    (hr : isIdentifier r = true) {methods : List String}
    (hmethods : ∀ line ∈ methods, line.toList.head? = some '\t') :
    Shows (["type " ++ name ++ "[" ++ r ++ " any] interface \x7b"] ++ methods ++ ["\x7d"])
      [.interface name (methods.map Item.readMethod)] := by
  have hline : "type " ++ name ++ "[" ++ r ++ " any] interface \x7b" =
      Opening.type.text ++ (name ++ "[" ++ r ++ " any]" ++ " interface \x7b") := by
    simp [Opening.text, String.append_assoc]
  have hbody : ∀ line ∈ methods, Opening.of? line = none ∧ line ≠ "\x7d" := fun line hline =>
    isBodyLine (hmethods line hline)
  have hread : Item.read .type (name ++ "[" ++ r ++ " any]" ++ " interface \x7b").toList
      (methods ++ ["\x7d"]) = .interface name (methods.map Item.readMethod) := by
    unfold Item.read
    dsimp only
    rw [upTo_typeHead hname, after_typeHead hname hr, if_pos rfl,
      takeWhile_body fun line hline => (hbody line hline).2, String.ofList_toList]
  rw [hline]
  exact Shows.block hbody hread

/-- The greatest width is not exceeded. -/
theorem length_le_greatestWidth {fs : List FieldSource} {f : FieldSource} (hf : f ∈ fs) :
    f.ident.length ≤ FieldSource.greatestWidth fs := by
  have hfold : ∀ (ns : List Nat) (m : Nat), m ≤ ns.foldl max m ∧ ∀ n ∈ ns, n ≤ ns.foldl max m := by
    intro ns
    induction ns with
    | nil => simp
    | cons n ns ih =>
      intro m
      obtain ⟨hseed, hall⟩ := ih (max m n)
      rw [List.foldl_cons, List.forall_mem_cons]
      exact ⟨le_trans (Nat.le_max_left m n) hseed, le_trans (Nat.le_max_right m n) hseed, hall⟩
  exact (hfold _ 0).2 _ (List.mem_map_of_mem hf)

/-- A field in a column is read with its type. -/
theorem readField_structLine {width : Nat} {f : FieldSource} (hf : f.IsReadable)
    (h : f.ident.length ≤ width) :
    Item.readField (f.structLine width) = (f.ident, f.type) := by
  have hspaces : width + 1 - f.ident.length = (width - f.ident.length) + 1 := by omega
  have hline : (f.structLine width).toList.drop 1 = f.ident.toList ++
      ' ' :: (List.replicate (width - f.ident.length) ' ' ++ f.type.toList) := by
    simp [FieldSource.structLine, hspaces, List.replicate_succ]
  rw [Item.readField, hline, pairAt_append (not_mem_of_isIdentifier hf.ident ' ' (by decide))
    (hf.type ' ' (by decide))]

/-- The struct of a variant shows it with its fields. -/
theorem shows_structBlock (hv : v.IsReadable) (hr : isIdentifier r = true) :
    Shows (v.structBlock true r) [.struct v.name (v.fields.map fun f => (f.ident, f.type))] := by
  have hline : "type " ++ v.applied (r ++ " any") ++ " struct \x7b" =
      Opening.type.text ++ (v.name ++ "[" ++ r ++ " any]" ++ " struct \x7b") := by
    simp [Opening.text, VariantSource.applied, String.append_assoc]
  have hbody : ∀ line ∈ FieldSource.structLines true v.fields,
      Opening.of? line = none ∧ line ≠ "\x7d" := by
    intro line hline
    obtain ⟨f, -, rfl⟩ := List.mem_map.1 hline
    exact isBodyLine (by simp [FieldSource.structLine])
  have hfields : (FieldSource.structLines true v.fields).map Item.readField =
      v.fields.map fun f => (f.ident, f.type) := by
    rw [FieldSource.structLines, if_pos rfl, List.map_map]
    refine List.map_congr_left fun f hf => ?_
    exact readField_structLine (hv.fields f hf) (length_le_greatestWidth hf)
  have hread : Item.read .type (v.name ++ "[" ++ r ++ " any]" ++ " struct \x7b").toList
      (FieldSource.structLines true v.fields ++ ["\x7d"]) =
        .struct v.name (v.fields.map fun f => (f.ident, f.type)) := by
    unfold Item.read
    dsimp only
    rw [upTo_typeHead hv.name, after_typeHead hv.name hr, if_neg (by decide),
      takeWhile_body fun line hline => (hbody line hline).2, hfields, String.ofList_toList]
  rw [VariantSource.structBlock, hline]
  exact Shows.block hbody hread

/-- The check shows the variant. -/
theorem shows_nodeBlock (hv : v.IsReadable) : Shows v.nodeBlock [.check v.name] := by
  intro below
  have hline : "var _ " ++ nodeName ++ "[any] = (*" ++ v.applied "any" ++ ")(nil)" =
      Opening.check.text ++ ("Expr[any] = (*" ++ v.applied "any" ++ ")(nil)") := by
    rw [← String.toList_inj]
    simp [Opening.text, nodeName]
  have hrest : ("Expr[any] = (*" ++ v.applied "any" ++ ")(nil)").toList =
      "Expr[any] = (".toList ++ '*' :: (v.name.toList ++ '[' :: "any])(nil)".toList) := by
    simp [VariantSource.applied]
  rw [VariantSource.nodeBlock, hline, List.singleton_append, items_append]
  unfold Item.read
  dsimp only
  rw [hrest, after_append (by decide),
    upTo_append (not_mem_of_isIdentifier hv.name '[' (by decide)), String.ofList_toList,
    List.singleton_append]

/-- An accepting method is read with the method that it calls. -/
theorem read_accept {n m : String} (hn : isIdentifier n = true) (hm : isIdentifier m = true)
    (tail : String) (below : List String) :
    Item.read .accept (n ++ "[" ++ tail).toList (("\treturn visitor." ++ m ++ "(e)") :: below) =
      .accept n m := by
  have hrest : (n ++ "[" ++ tail).toList = n.toList ++ '[' :: tail.toList := by simp
  have hcall : ("\treturn visitor." ++ m ++ "(e)").toList =
      "\treturn visitor".toList ++ '.' :: (m.toList ++ '(' :: "e)".toList) := by simp
  unfold Item.read
  dsimp only
  rw [hrest, upTo_append (not_mem_of_isIdentifier hn '[' (by decide)), List.headD_cons, hcall,
    after_append (by decide), upTo_append (not_mem_of_isIdentifier hm '(' (by decide)),
    String.ofList_toList, String.ofList_toList]

/-- The accepting method shows the variant with the method that it calls. -/
theorem shows_acceptBlock (hv : v.IsReadable) :
    Shows (v.acceptBlock r) [.accept v.name v.visitMethod] := by
  have hline : "func (e *" ++ v.applied r ++ ") " ++ acceptName ++ "(visitor " ++ visitorName ++
        "[" ++ r ++ "]) " ++ r ++ " \x7b" =
      Opening.accept.text ++ (v.name ++ "[" ++ (r ++ "]) " ++ acceptName ++ "(visitor " ++
        visitorName ++ "[" ++ r ++ "]) " ++ r ++ " \x7b")) := by
    simp [VariantSource.applied, Opening.text, String.append_assoc]
  have hcall : ("\treturn visitor." ++ v.visitMethod ++ "(e)").toList.head? = some '\t' := by simp
  rw [VariantSource.acceptBlock, hline]
  exact Shows.block_singleton (isBodyLine hcall) (read_accept hv.name hv.visitMethod _ _)

/-- An identifier has no spaces at its front. -/
theorem dropSpaces_of_isIdentifier {n : String} (h : isIdentifier n = true) (rest : List Char) :
    dropSpaces (n.toList ++ rest) = n.toList ++ rest := by
  obtain ⟨c, cs, hc, -, -⟩ := Layout.exists_of_hasIdentifierShape (Piece.of_isIdentifier h).1
  have hspace : c ≠ ' ' := by
    rintro rfl
    exact not_mem_of_isIdentifier h ' ' (by decide) (by simp [hc])
  simp [hc, dropSpaces, hspace]

/-- A list of pairs that begin with an identifier is read pair by pair. -/
theorem map_pairAt_commaParts {α : Type} {c : Char} (hc : c ∈ marks) (hcomma : c ≠ ',') (n : Nat)
    {a b f : α → String} {xs : List α}
    (hf : ∀ x ∈ xs, (f x).toList = (a x).toList ++ c :: (List.replicate n ' ' ++ (b x).toList))
    (ha : ∀ x ∈ xs, isIdentifier (a x) = true)
    (hb : ∀ x ∈ xs, ',' ∉ (b x).toList ∧ ' ' ∉ (b x).toList) :
    (commaParts (", ".intercalate (xs.map f)).toList).map (pairAt c) =
      xs.map fun x => (a x, b x) := by
  have hparts : ∀ y ∈ xs.map f, ',' ∉ y.toList ∧ dropSpaces y.toList = y.toList ∧ y ≠ "" := by
    intro y hy
    obtain ⟨x, hx, rfl⟩ := List.mem_map.1 hy
    have hname := ha x hx
    refine ⟨?_, ?_, ?_⟩
    · rw [hf x hx]
      simp [not_mem_of_isIdentifier hname ',' (by decide), (hb x hx).1, hcomma.symm]
    · rw [hf x hx, dropSpaces_of_isIdentifier hname]
    · intro hempty
      have htext := hf x hx
      rw [hempty] at htext
      simp at htext
  rw [commaParts_intercalate hparts, List.map_map, List.map_map]
  refine List.map_congr_left fun x hx => ?_
  rw [Function.comp_apply, Function.comp_apply, hf x hx,
    pairAt_append (not_mem_of_isIdentifier (ha x hx) c hc) (hb x hx).2]

/-- What stands in no part and is not written between them does not stand in the parts with commas
between them. -/
theorem not_mem_intercalate {c : Char} (hcomma : c ≠ ',') (hspace : c ≠ ' ') {xs : List String}
    (h : ∀ x ∈ xs, c ∉ x.toList) : c ∉ (", ".intercalate xs).toList := by
  induction xs with
  | nil => simp
  | cons x xs ih =>
    obtain ⟨hx, hxs⟩ := List.forall_mem_cons.1 h
    cases xs with
    | nil => simpa using hx
    | cons y xs =>
      rw [String.intercalate_cons_cons]
      simp only [String.toList_append, List.mem_append, not_or]
      exact ⟨⟨hx, by simp [hcomma, hspace]⟩, ih hxs⟩

/-- A constructor is read with what stands between its brackets and between its braces. -/
theorem read_constructor {n params inits : String} (hn : isIdentifier n = true)
    (hr : isIdentifier r = true) (hparams : ')' ∉ params.toList) (hinits : '\x7d' ∉ inits.toList)
    (tail : String) (below : List String) :
    Item.read .constructor (n ++ "[" ++ r ++ " any](" ++ params ++ ")" ++ tail).toList
        (("\treturn &" ++ n ++ "[" ++ r ++ "]\x7b" ++ inits ++ "\x7d") :: below) =
      .constructor n ((commaParts params.toList).map (pairAt ' ')) n
        ((commaParts inits.toList).map (pairAt ':')) := by
  have hname := not_mem_of_isIdentifier hn
  have hresult := not_mem_of_isIdentifier hr
  have hrest : (n ++ "[" ++ r ++ " any](" ++ params ++ ")" ++ tail).toList =
      n.toList ++ '[' :: (r ++ " any](" ++ params ++ ")" ++ tail).toList := by simp
  have hopen : (n ++ "[" ++ r ++ " any](" ++ params ++ ")" ++ tail).toList =
      (n ++ "[" ++ r ++ " any]").toList ++ '(' :: (params.toList ++ ')' :: tail.toList) := by simp
  have hbuilt : ("\treturn &" ++ n ++ "[" ++ r ++ "]\x7b" ++ inits ++ "\x7d").toList =
      "\treturn ".toList ++
        '&' :: (n.toList ++ '[' :: (r ++ "]\x7b" ++ inits ++ "\x7d").toList) := by
    simp
  have hbrace : ("\treturn &" ++ n ++ "[" ++ r ++ "]\x7b" ++ inits ++ "\x7d").toList =
      ("\treturn &" ++ n ++ "[" ++ r ++ "]").toList ++
        '\x7b' :: (inits.toList ++ '\x7d' :: []) := by
    simp
  have hnoOpen : '(' ∉ (n ++ "[" ++ r ++ " any]").toList := by
    simp [hname '(' (by decide), hresult '(' (by decide)]
  have hnoBrace : '\x7b' ∉ ("\treturn &" ++ n ++ "[" ++ r ++ "]").toList := by
    simp [hname '\x7b' (by decide), hresult '\x7b' (by decide)]
  have hread : upTo '[' (n ++ "[" ++ r ++ " any](" ++ params ++ ")" ++ tail).toList = n.toList := by
    rw [hrest, upTo_append (hname '[' (by decide))]
  have hlist : upTo ')' (after '(' (n ++ "[" ++ r ++ " any](" ++ params ++ ")" ++ tail).toList) =
      params.toList := by
    rw [hopen, after_append hnoOpen, upTo_append hparams]
  have hliteral : upTo '[' (after '&'
      ("\treturn &" ++ n ++ "[" ++ r ++ "]\x7b" ++ inits ++ "\x7d").toList) = n.toList := by
    rw [hbuilt, after_append (by decide), upTo_append (hname '[' (by decide))]
  have hset : upTo '\x7d' (after '\x7b'
      ("\treturn &" ++ n ++ "[" ++ r ++ "]\x7b" ++ inits ++ "\x7d").toList) = inits.toList := by
    rw [hbrace, after_append hnoBrace, upTo_append hinits]
  unfold Item.read
  dsimp only
  rw [List.headD_cons, hread, hlist, hliteral, hset, String.ofList_toList]

/-- The constructor shows the variant with its parameters, in order, and each field set to its own
parameter. -/
theorem shows_constructorBlock (hv : v.IsReadable) (hr : isIdentifier r = true) :
    Shows (v.constructorBlock r)
      [.constructor v.name (v.fields.map fun f => (f.param, f.type)) v.name
        (v.fields.map fun f => (f.ident, f.param))] := by
  have hparams : ')' ∉ (", ".intercalate (v.fields.map FieldSource.parameter)).toList := by
    refine not_mem_intercalate (by decide) (by decide) (List.forall_mem_map.2 fun f hf => ?_)
    have hf := hv.fields f hf
    simp [FieldSource.parameter, not_mem_of_isIdentifier hf.param ')' (by decide),
      hf.type ')' (by decide)]
  have hinits : '\x7d' ∉ (", ".intercalate (v.fields.map FieldSource.initialiser)).toList := by
    refine not_mem_intercalate (by decide) (by decide) (List.forall_mem_map.2 fun f hf => ?_)
    have hf := hv.fields f hf
    simp [FieldSource.initialiser, not_mem_of_isIdentifier hf.param '\x7d' (by decide),
      not_mem_of_isIdentifier hf.ident '\x7d' (by decide)]
  have hparts : (commaParts (", ".intercalate (v.fields.map FieldSource.parameter)).toList).map
      (pairAt ' ') = v.fields.map fun f => (f.param, f.type) :=
    map_pairAt_commaParts (by decide) (by decide) 0 (by simp [FieldSource.parameter])
      (fun f hf => (hv.fields f hf).param)
      fun f hf => ⟨(hv.fields f hf).type ',' (by decide), (hv.fields f hf).type ' ' (by decide)⟩
  have hpairs : (commaParts (", ".intercalate (v.fields.map FieldSource.initialiser)).toList).map
      (pairAt ':') = v.fields.map fun f => (f.ident, f.param) := by
    refine map_pairAt_commaParts (by decide) (by decide) 1 (by simp [FieldSource.initialiser])
      (fun f hf => (hv.fields f hf).ident) fun f hf => ?_
    have hparam := not_mem_of_isIdentifier (hv.fields f hf).param
    exact ⟨hparam ',' (by decide), hparam ' ' (by decide)⟩
  have hline : "func " ++ v.constructorName ++ "[" ++ r ++ " any](" ++
        ", ".intercalate (v.fields.map FieldSource.parameter) ++ ") *" ++ v.applied r ++ " \x7b" =
      Opening.constructor.text ++ (v.name ++ "[" ++ r ++ " any](" ++
        ", ".intercalate (v.fields.map FieldSource.parameter) ++ ")" ++
          (" *" ++ v.applied r ++ " \x7b")) := by
    rw [← String.toList_inj]
    simp [VariantSource.constructorName, Opening.text]
  have hbuilt : "\treturn &" ++ v.applied r ++ "\x7b" ++
        ", ".intercalate (v.fields.map FieldSource.initialiser) ++ "\x7d" =
      "\treturn &" ++ v.name ++ "[" ++ r ++ "]\x7b" ++
        ", ".intercalate (v.fields.map FieldSource.initialiser) ++ "\x7d" := by
    rw [← String.toList_inj]
    simp [VariantSource.applied]
  have hbody : Opening.of? ("\treturn &" ++ v.name ++ "[" ++ r ++ "]\x7b" ++
      ", ".intercalate (v.fields.map FieldSource.initialiser) ++ "\x7d") = none ∧ _ ≠ "\x7d" :=
    isBodyLine (by simp)
  rw [VariantSource.constructorBlock, hline, hbuilt]
  refine Shows.block_singleton hbody ?_
  rw [read_constructor hv.name hr hparams hinits, hparts, hpairs]

/-- The package clause shows nothing. -/
theorem shows_packageBlock (package : String) : Shows (packageBlock package) [] := by
  refine Shows.skips (List.forall_mem_singleton.2 ?_)
  exact Opening.of?_eq_none (c := 'p') (by simp) (by decide)

/-- The import block shows nothing, whatever the paths are. -/
theorem shows_importBlock (paths : List String) :
    List.Forall₂ Shows (importBlock paths) ((importBlock paths).map fun _ => []) := by
  cases paths with
  | nil => exact .nil
  | cons p paths =>
    refine .cons (Shows.skips ?_) .nil
    refine List.forall_mem_append.2 ⟨List.forall_mem_append.2 ⟨?_, ?_⟩, ?_⟩
    · decide
    · refine List.forall_mem_map.2 fun q _ => ?_
      exact Opening.of?_eq_none (c := '\t') (by simp) (by decide)
    · decide

/-- The node interface shows itself with the accepting method. -/
theorem shows_nodeInterface (hr : isIdentifier r = true) :
    Shows (nodeInterface r) [.interface nodeName [(acceptName, visitorName)]] := by
  have hfirst :
      ("\t" ++ acceptName ++ "(visitor " ++ visitorName ++ "[" ++ r ++ "]) " ++ r).toList =
        '\t' :: (acceptName.toList ++ '(' :: ("visitor Visitor[" ++ r ++ "]) " ++ r).toList) := by
    simp [acceptName, visitorName]
  have hsecond :
      ("\t" ++ acceptName ++ "(visitor " ++ visitorName ++ "[" ++ r ++ "]) " ++ r).toList =
        "\tAccept(visitor".toList ++
          ' ' :: (visitorName.toList ++ '[' :: (r ++ "]) " ++ r).toList) := by
    simp [acceptName, visitorName]
  have hread : Item.readMethod ("\t" ++ acceptName ++ "(visitor " ++ visitorName ++ "[" ++ r ++
      "]) " ++ r) = (acceptName, visitorName) := by
    rw [Item.readMethod, hsecond, after_append (by decide), upTo_append (by decide), ← hsecond,
      hfirst, List.drop_one, List.tail_cons, upTo_append (by decide), String.ofList_toList,
      String.ofList_toList]
  have hname : isIdentifier nodeName = true := by decide
  have hinterface := shows_interface hname hr (List.forall_mem_singleton.2 (by rw [hfirst]; rfl))
  rw [List.map_singleton, hread] at hinterface
  exact Shows.skip (by decide) (Shows.skip (by decide) hinterface)

/-- The visitor interface shows itself with a method for each variant. -/
theorem shows_visitorInterface (hr : isIdentifier r = true) {vs : List VariantSource}
    (hvs : ∀ v ∈ vs, v.IsReadable) :
    Shows (visitorInterface r vs)
      [.interface visitorName (vs.map fun v => (v.visitMethod, "*" ++ v.name))] := by
  have hmethods : (vs.map (VariantSource.visitorLine r)).map Item.readMethod =
      vs.map fun v => (v.visitMethod, "*" ++ v.name) := by
    rw [List.map_map]
    exact List.map_congr_left fun v hv => readMethod_visitorLine (hvs v hv)
  have htabs : ∀ line ∈ vs.map (VariantSource.visitorLine r), line.toList.head? = some '\t' :=
    List.forall_mem_map.2 fun v _ => by simp [VariantSource.visitorLine]
  rw [← hmethods]
  exact Shows.skip (by decide) (shows_interface (by decide) hr htabs)

/-- What the blocks of a variant show. -/
def VariantSource.items (v : VariantSource) : List Item :=
  [.struct v.name (v.fields.map fun f => (f.ident, f.type)), .check v.name,
    .accept v.name v.visitMethod,
    .constructor v.name (v.fields.map fun f => (f.param, f.type)) v.name
      (v.fields.map fun f => (f.ident, f.param))]

/-- Each block of a variant shows one item. -/
theorem shows_blocks (hv : v.IsReadable) (hr : isIdentifier r = true) :
    List.Forall₂ Shows (v.blocks true r) (v.items.map ([·])) :=
  .cons (shows_structBlock hv hr) (.cons (shows_nodeBlock hv) (.cons (shows_acceptBlock hv)
    (.cons (shows_constructorBlock hv hr) .nil)))

end Blocks

/-! ## Lines that stay lines -/

/-- No line of a block has a line break in it. -/
def AreLines (block : List String) : Prop := ∀ line ∈ block, '\n' ∉ line.toList

section Lines

variable {r : String} {v : VariantSource}

/-- The import block consists of lines, whatever the paths are. -/
theorem areLines_importBlock (paths : List String) :
    ∀ block ∈ importBlock paths, AreLines block := by
  cases paths with
  | nil => simp [importBlock]
  | cons p paths =>
    have hquote : ∀ q, '\n' ∉ (Text.quote q).toList := fun q hq =>
      (Layout.isPlainChar_of_mem_quote hq).1 rfl
    have hpaths : AreLines ((p :: paths).map fun p => "\t" ++ Text.quote p) :=
      List.forall_mem_map.2 fun q _ => by simp [hquote]
    refine List.forall_mem_singleton.2 (List.forall_mem_append.2
      ⟨List.forall_mem_append.2 ⟨?_, hpaths⟩, ?_⟩)
    · simp
    · simp

/-- The node interface consists of lines. -/
theorem areLines_nodeInterface (hr : isIdentifier r = true) : AreLines (nodeInterface r) := by
  have hbreak := not_mem_of_isIdentifier hr '\n' (by decide)
  simp [AreLines, nodeInterface, nodeName, visitorName, acceptName, hbreak]

/-- The visitor interface consists of lines. -/
theorem areLines_visitorInterface (hr : isIdentifier r = true) {vs : List VariantSource}
    (hvs : ∀ v ∈ vs, v.IsReadable) : AreLines (visitorInterface r vs) := by
  have hbreak := not_mem_of_isIdentifier hr '\n' (by decide)
  have hmethods : AreLines (vs.map (VariantSource.visitorLine r)) := by
    refine List.forall_mem_map.2 fun v hv => ?_
    have hname := not_mem_of_isIdentifier (hvs v hv).name '\n' (by decide)
    simp [VariantSource.visitorLine, VariantSource.visitMethod, VariantSource.applied, hname,
      hbreak]
  refine List.forall_mem_append.2 ⟨List.forall_mem_append.2 ⟨?_, hmethods⟩, ?_⟩
  · simp [visitorName, hbreak]
  · simp

/-- The blocks of a variant consist of lines. -/
theorem VariantSource.IsReadable.areLines (hv : v.IsReadable) (hr : isIdentifier r = true) :
    ∀ block ∈ v.blocks true r, AreLines block := by
  have hbreak := not_mem_of_isIdentifier hr '\n' (by decide)
  have hname := not_mem_of_isIdentifier hv.name '\n' (by decide)
  have hfields : AreLines (FieldSource.structLines true v.fields) := by
    refine List.forall_mem_map.2 fun f hf => ?_
    have hf := hv.fields f hf
    simp [FieldSource.structLine, not_mem_of_isIdentifier hf.ident '\n' (by decide),
      hf.type '\n' (by decide)]
  have hparams : '\n' ∉ (", ".intercalate (v.fields.map FieldSource.parameter)).toList := by
    refine not_mem_intercalate (by decide) (by decide) (List.forall_mem_map.2 fun f hf => ?_)
    have hf := hv.fields f hf
    simp [FieldSource.parameter, not_mem_of_isIdentifier hf.param '\n' (by decide),
      hf.type '\n' (by decide)]
  have hinits : '\n' ∉ (", ".intercalate (v.fields.map FieldSource.initialiser)).toList := by
    refine not_mem_intercalate (by decide) (by decide) (List.forall_mem_map.2 fun f hf => ?_)
    have hf := hv.fields f hf
    simp [FieldSource.initialiser, not_mem_of_isIdentifier hf.param '\n' (by decide),
      not_mem_of_isIdentifier hf.ident '\n' (by decide)]
  simp only [VariantSource.blocks, List.forall_mem_cons, List.not_mem_nil, false_implies,
    implies_true, and_true]
  refine ⟨List.forall_mem_append.2 ⟨List.forall_mem_append.2 ⟨?_, hfields⟩, ?_⟩, ?_, ?_, ?_⟩
  · simp [VariantSource.applied, hname, hbreak]
  · simp
  · simp [AreLines, VariantSource.nodeBlock, VariantSource.applied, nodeName, hname]
  · simp [AreLines, VariantSource.acceptBlock, VariantSource.applied, VariantSource.visitMethod,
      acceptName, visitorName, hname, hbreak]
  · simp [-String.toList_intercalate, AreLines, VariantSource.constructorBlock,
      VariantSource.constructorName, VariantSource.applied, hname, hbreak, hparams, hinits]

end Lines

/-! ## The file -/

/-- Lists that are related part by part are related. -/
theorem forall₂_flatMap {α β γ : Type} {R : β → γ → Prop} {f : α → List β} {g : α → List γ}
    {xs : List α} (h : ∀ x ∈ xs, List.Forall₂ R (f x) (g x)) :
    List.Forall₂ R (xs.flatMap f) (xs.flatMap g) := by
  induction xs with
  | nil => exact .nil
  | cons x xs ih =>
    rw [List.forall_mem_cons] at h
    exact List.rel_append h.1 (ih h.2)

namespace SourceFile

variable {f : SourceFile}

/-- The variants of a plain file can be read. -/
theorem isReadable_variants (h : f.isPlain = true) : ∀ v ∈ f.variants, v.IsReadable := by
  refine List.forall_mem_map.2 fun v hv => ?_
  have hvariants := List.all_eq_true.1 (Bool.and_eq_true_iff.1 h).2
  exact isReadable_of_isPlainVariant (hvariants v hv) (isIdentifier_resultParam f.schema)

/-- The opening comment of a file begins with a slash. -/
theorem head?_header (f : SourceFile) : f.header.toList.head? = some '/' := by
  have hopening : headerStart.toList = '/' :: "/ Code generated by ".toList := rfl
  unfold header headerText
  simp only [String.toList_ofList, String.toList_append, hopening, List.cons_append]
  rw [List.filter_cons_of_pos (by decide), List.head?_cons]

/-- The blocks of a plain file consist of lines. -/
theorem areLines_blocks (h : f.isPlain = true) :
    ∀ block ∈ f.blocks true (importPaths f.imports), AreLines block := by
  have hr := isIdentifier_resultParam f.schema
  have hvs := isReadable_variants h
  have hpackage := not_mem_of_isIdentifier (isIdentifier_package h) '\n' (by decide)
  simp only [blocks, List.forall_mem_append, List.forall_mem_cons]
  refine ⟨⟨⟨?_, areLines_importBlock _⟩, areLines_nodeInterface hr,
    areLines_visitorInterface hr hvs, by simp⟩, ?_⟩
  · simp [AreLines, packageBlock, hpackage]
  · intro block hblock
    obtain ⟨v, hv, hblock⟩ := List.mem_flatMap.1 hblock
    exact (hvs v hv).areLines hr block hblock

/-- The lines of a plain file: its opening comment, an empty line unless the comment has a form feed
in it, and the lines of its blocks. -/
theorem linesOf_text (h : f.isPlain = true) :
    linesOf f.text = f.header :: (if f.header.toList.contains '\x0c' then [] else [""]) ++
      List.intercalate [""] (f.blocks true (importPaths f.imports)) ++ [""] := by
  have hheader := not_mem_header h
  have hlines : ∀ line ∈ List.intercalate [""] (f.blocks true (importPaths f.imports)),
      '\n' ∉ line.toList :=
    forall_mem_intercalate (by decide) (areLines_blocks h)
  unfold text
  dsimp only
  split_ifs with hfeed
  · rw [linesOf_append hheader, textOfBlocks, linesOf_join hlines]
    rfl
  · have hbreak : ∀ body : String,
        f.header ++ "\n\n" ++ body = f.header ++ "\n" ++ ("" ++ "\n" ++ body) := by
      intro body
      rw [← String.toList_inj]
      simp
    rw [hbreak, linesOf_append hheader, linesOf_append (by simp), textOfBlocks, linesOf_join hlines]
    rfl

/-- The blocks of a plain file show its items. -/
theorem forall₂_shows_blocks (h : f.isPlain = true) :
    List.Forall₂ Shows (f.blocks true (importPaths f.imports))
      ([] :: (importBlock (importPaths f.imports)).map (fun _ => []) ++
        [[.interface nodeName [(acceptName, visitorName)]],
          [.interface visitorName (f.variants.map fun v => (v.visitMethod, "*" ++ v.name))]] ++
        f.variants.flatMap fun v => v.items.map ([·])) := by
  have hr := isIdentifier_resultParam f.schema
  have hvs := isReadable_variants h
  refine List.rel_append (List.rel_append (.cons ?_ ?_) (.cons ?_ (.cons ?_ .nil))) ?_
  · exact shows_packageBlock f.package
  · exact shows_importBlock _
  · exact shows_nodeInterface hr
  · exact shows_visitorInterface hr hvs
  · exact forall₂_flatMap fun v hv => shows_blocks (hvs v hv) hr

/-- What a plain file declares. -/
theorem items_linesOf_text (h : f.isPlain = true) :
    items (linesOf f.text) =
      .interface nodeName [(acceptName, visitorName)] ::
      .interface visitorName (f.variants.map fun v => (v.visitMethod, "*" ++ v.name)) ::
      f.variants.flatMap VariantSource.items := by
  have hheader : Shows (f.header :: if f.header.toList.contains '\x0c' then [] else [""]) [] := by
    refine Shows.skips (List.forall_mem_cons.2
      ⟨Opening.of?_eq_none f.head?_header (by decide), ?_⟩)
    split_ifs
    · simp
    · decide
  have hlast : Shows [""] [] := Shows.skips (by decide)
  have hall := (hheader.append (Shows.intercalate (forall₂_shows_blocks h))).append hlast []
  rw [List.append_nil, ← linesOf_text h] at hall
  have hsingle : ∀ v : VariantSource, (v.items.map ([·])).flatten = v.items := fun v => rfl
  have hend : Outline.items [] = [] := rfl
  rw [hall]
  simp [List.flatMap_def, List.flatten_flatten, Function.comp_def, hsingle, hend]

/-- Each opening begins as many lines of a plain file as there are variants, and two more for the
interfaces. -/
theorem countP_begins_text (h : f.isPlain = true) (k : Opening) :
    (linesOf f.text).countP k.begins = f.variants.length + if k = .type then 2 else 0 := by
  have hitems : ∀ v : VariantSource, (v.items.map Item.opening).count k = 1 := by
    intro v
    have hopenings : v.items.map Item.opening = [.type, .check, .accept, .constructor] := rfl
    rw [hopenings]
    cases k <;> rfl
  have hvariants : ∀ vs : List VariantSource,
      ((vs.flatMap VariantSource.items).map Item.opening).count k = vs.length := by
    intro vs
    induction vs with
    | nil => rfl
    | cons v vs ih =>
      rw [List.flatMap_cons, List.map_append, List.count_append, hitems, ih, List.length_cons,
        Nat.add_comm]
  rw [countP_begins, items_linesOf_text h, List.map_cons, List.map_cons, List.count_cons,
    List.count_cons, hvariants]
  cases k <;> rfl

end SourceFile

/-- The result parameter does not depend on the marks of the fields. -/
@[simp]
theorem resultParam_classify (s : Schema) : resultParam s.classify = resultParam s := by
  have hused : usedNames s.classify = usedNames s := by
    simp [usedNames, Schema.classify, Variant.classify, Field.classify, List.flatMap_map]
  rw [resultParam, hused, resultParam]

end Emission

open Emission

/-- The variants of the file that the options ask for. -/
theorem variants_file (o : Options) (s : Schema) : (o.file s).variants =
    s.variants.map fun v => VariantSource.of o.exportFields (resultParam s) v.classify := by
  rw [SourceFile.variants, Options.file, resultParam_classify, Schema.classify, List.map_map]
  rfl

/-- What a generated text declares, in order, when the generator's name has no line break in it.
There are the two interfaces, the first with the accepting method and the second with one method for
each variant, which takes it. Then follow for each variant its struct with the emitted identifiers
and types of its fields, the check that it is a node, the accepting method, which calls the method
of the visitor for it, and the constructor, which takes one parameter for each field under its own
name and sets the identifier of the field to it. No identifier is set twice. Each opening but that
of types begins as many lines as there are variants. -/
theorem items_generateSchema {o : Options} {s : Schema} {code : String}
    (hgenerator : '\n' ∉ o.generator.toList) (h : generateSchema o (some s) = .ok code) :
    items (linesOf code) =
        .interface "Expr" [("Accept", "Visitor")] ::
        .interface "Visitor"
          (s.variants.map fun v => ("Visit" ++ v.name ++ "Expr", "*" ++ v.name)) ::
        s.variants.flatMap (fun v =>
          [.struct v.name (v.fields.map fun f =>
              (fieldIdent o.exportFields f.name, fieldType (resultParam s) f.classify)),
            .check v.name,
            .accept v.name ("Visit" ++ v.name ++ "Expr"),
            .constructor v.name
              (v.fields.map fun f => (f.name, fieldType (resultParam s) f.classify)) v.name
              (v.fields.map fun f => (fieldIdent o.exportFields f.name, f.name))]) ∧
      (∀ v ∈ s.variants, (v.fields.map fun f => fieldIdent o.exportFields f.name).Nodup) ∧
      ∀ k : Opening, (linesOf code).countP k.begins =
        s.variants.length + if k = .type then 2 else 0 := by
  obtain ⟨-, hfaults, hplain, rfl⟩ := (generateSchema_eq_ok_iff hgenerator).1 h
  have hlegal := Schema.faults_eq_nil_iff.1 hfaults
  refine ⟨?_, fun v hv => (hlegal.variants v hv).nodup, fun k => ?_⟩
  · rw [SourceFile.items_linesOf_text hplain, variants_file]
    simp [List.flatMap_map, VariantSource.items, VariantSource.of, VariantSource.visitMethod,
      FieldSource.of, Variant.classify, Field.classify, Function.comp_def, nodeName, acceptName,
      visitorName]
  · rw [SourceFile.countP_begins_text hplain, variants_file, List.length_map]

/-- A variant with a child and a leaf, whose fields are put into title case, and a variant without
fields. An import has a line break and an opening in it. -/
theorem items_generateSchema_binary :
    let o : Options := { imports := ["a\ntype X", ""], exportFields := true, generator := "gen v2" }
    let s : Schema := ⟨[⟨"Binary", [⟨"Expr", "left", .leaf⟩, ⟨"*token.Token", "op", .leaf⟩]⟩,
      ⟨"Nil", []⟩]⟩
    ∃ code, generateSchema o (some s) = .ok code ∧ items (linesOf code) =
      [.interface "Expr" [("Accept", "Visitor")],
        .interface "Visitor" [("VisitBinaryExpr", "*Binary"), ("VisitNilExpr", "*Nil")],
        .struct "Binary" [("Left", "Expr[R]"), ("Op", "*token.Token")],
        .check "Binary",
        .accept "Binary" "VisitBinaryExpr",
        .constructor "Binary" [("left", "Expr[R]"), ("op", "*token.Token")] "Binary"
          [("Left", "left"), ("Op", "op")],
        .struct "Nil" [], .check "Nil", .accept "Nil" "VisitNilExpr",
        .constructor "Nil" [] "Nil" []] := by
  intro o s
  have hgenerate : generateSchema o (some s) = .ok (o.file s).text :=
    generateSchema_of_isPlain (by decide) (by decide +kernel) (by decide +kernel)
  refine ⟨_, hgenerate, ?_⟩
  rw [(items_generateSchema (by decide) hgenerate).1]
  decide +kernel

end NodeFamily
