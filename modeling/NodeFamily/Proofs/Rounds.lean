import Mathlib.Data.List.Basic
import NodeFamily.Declaration
import NodeFamily.SchemaCheck

/-!
# Rounds that stop at the first fault

Reading declarations and checking a schema go through their items in rounds, and with `failFast`
each round, and each round inside another, is over at the first fault. `IsCutOf` says what that
comes to: no fault was found either way and all else is the same, or the one fault of the round that
stopped is the first fault of the one that did not. Steps that keep to this make a round that does
(`isCutOf_inTurn`), and so the rounds over segments, declarations and leaf types do
(`Progress.isCutOf_ofDeclarations`), and those over variants and fields
(`Schema.checkAs_failFast`).
-/

namespace NodeFamily

section InTurn

variable {σ α : Type}

/-- What a round that stops at the first fault has come to, against one that does not: the same
without any fault, or the first fault alone. -/
def IsCutOf (found : σ → List Fault) (s t : σ) : Prop :=
  (found t = [] ∧ s = t) ∨ ∃ f rest, found s = [f] ∧ found t = f :: rest

/-- A round that stops has found the first fault of the one that does not, if there is one. -/
theorem IsCutOf.found_eq {found : σ → List Fault} {s t : σ} (h : IsCutOf found s t) :
    found s = (found t).take 1 := by
  rcases h with ⟨hnone, rfl⟩ | ⟨f, rest, hs, ht⟩
  · rw [hnone, List.take_nil]
  · rw [hs, ht, List.take_succ_cons, List.take_zero]

/-- A first fault stays the first one. -/
theorem IsCutOf.of_prefix {found : σ → List Fault} {s t u : σ} {f : Fault} {rest : List Fault}
    (hs : found s = [f]) (ht : found t = f :: rest) (h : found t <+: found u) :
    IsCutOf found s u := by
  obtain ⟨more, hmore⟩ := h
  exact .inr ⟨f, rest ++ more, hs, by rw [← hmore, ht, List.cons_append]⟩

/-- A round that does not stop at faults takes all items. -/
theorem inTurn_false (found : σ → List Fault) (step : σ → α → σ) (s : σ) (items : List α) :
    inTurn false found step s items = items.foldl step s := by
  induction items generalizing s with
  | nil => rfl
  | cons a items ih => exact ih (step s a)

/-- What was found stays found in a round whose steps keep it. -/
theorem prefix_inTurn (found : σ → List Fault) (step : σ → α → σ)
    (hkeep : ∀ s a, found s <+: found (step s a)) (s : σ) (items : List α) :
    found s <+: found (inTurn false found step s items) := by
  rw [inTurn_false]
  induction items generalizing s with
  | nil => exact List.prefix_rfl
  | cons a items ih => exact (hkeep s a).trans (ih (step s a))

/-- A round from a state without faults stops as its steps do, which may be rounds themselves. -/
theorem isCutOf_inTurn (found : σ → List Fault) (steps : Bool → σ → α → σ)
    (hkeep : ∀ s a, found s <+: found (steps false s a))
    (hcut : ∀ s a, found s = [] → IsCutOf found (steps true s a) (steps false s a))
    {s : σ} (hs : found s = []) (items : List α) :
    IsCutOf found (inTurn true found (steps true) s items)
      (inTurn false found (steps false) s items) := by
  induction items generalizing s with
  | nil => exact .inl ⟨hs, rfl⟩
  | cons a items ih =>
    rw [inTurn_cons, inTurn_cons, stops_false, if_neg Bool.false_ne_true]
    rcases hcut s a hs with ⟨hnone, heq⟩ | ⟨f, rest, hone, hfirst⟩
    · rw [heq, hnone, stops_nil, if_neg Bool.false_ne_true]
      exact ih hnone
    · -- The round that does not stop goes on, and what it finds comes after this fault.
      rw [hone, stops_true_cons, if_pos rfl]
      exact IsCutOf.of_prefix hone hfirst (prefix_inTurn found (steps false) hkeep _ items)

/-- A step that adds at most one fault, and does so whether the round stops or not. -/
def AddsOne (found : σ → List Fault) (step : σ → α → σ) : Prop :=
  ∀ s a, ∃ fault? : Option Fault, found (step s a) = found s ++ fault?.toList

/-- A step that adds at most one fault keeps those before it. -/
theorem AddsOne.keeps {found : σ → List Fault} {step : σ → α → σ} (h : AddsOne found step) (s : σ)
    (a : α) : found s <+: found (step s a) := by
  obtain ⟨fault?, hstep⟩ := h s a
  exact ⟨fault?.toList, hstep.symm⟩

/-- A round whose steps add at most one fault stops. -/
theorem AddsOne.isCutOf_inTurn {found : σ → List Fault} {step : σ → α → σ}
    (h : AddsOne found step) {s : σ} (hs : found s = []) (items : List α) :
    IsCutOf found (inTurn true found step s items) (inTurn false found step s items) := by
  refine NodeFamily.isCutOf_inTurn found (fun _ => step) h.keeps (fun s a hs => ?_) hs items
  obtain ⟨fault?, hstep⟩ := h s a
  rw [hs, List.nil_append] at hstep
  cases fault? with
  | none => exact .inl ⟨hstep, rfl⟩
  | some f => exact .inr ⟨f, [], hstep, hstep⟩

end InTurn

/-! ## Reading declarations -/

/-- A segment adds at most one fault. -/
theorem FieldProgress.addsOne (i : Nat) (variant : String) :
    AddsOne (fun p : FieldProgress => p.progress.found) (FieldProgress.add i variant) := by
  intro p item
  unfold add
  split
  · next f _ => exact ⟨some f, rfl⟩
  · exact ⟨none, (List.append_nil _).symm⟩

namespace Progress

/-- Adding a fault that may be missing adds it to those found. -/
@[simp]
theorem found_reportAny (p : Progress) (f? : Option Fault) :
    (p.reportAny f?).found = p.found ++ f?.toList := by
  cases f? with
  | none => exact (List.append_nil _).symm
  | some f => rfl

/-- Reading fields finds what reading their segments finds. -/
theorem found_readFields (failFast : Bool) (p : Progress) (i : Nat) (variant : String)
    (header? : Option Fault) (segments : List Segment) :
    (p.readFields failFast i variant header? segments).found =
      (inTurn failFast (·.progress.found) (FieldProgress.add i variant) { progress := p }
        segments.zipIdx).progress.found := by
  unfold readFields
  dsimp only
  split <;> rfl

/-- Reading fields keeps the faults found before. -/
theorem prefix_readFields (p : Progress) (i : Nat) (variant : String) (header? : Option Fault)
    (segments : List Segment) :
    p.found <+: (p.readFields false i variant header? segments).found := by
  rw [found_readFields]
  exact prefix_inTurn _ _ (FieldProgress.addsOne i variant).keeps { progress := p } _

/-- Reading fields after no fault stops at their first fault. -/
theorem isCutOf_readFields {p : Progress} (hp : p.found = []) (i : Nat) (variant : String)
    (header? : Option Fault) (segments : List Segment) :
    IsCutOf found (p.readFields true i variant header? segments)
      (p.readFields false i variant header? segments) := by
  rcases (FieldProgress.addsOne i variant).isCutOf_inTurn (s := { progress := p }) hp
    segments.zipIdx with ⟨hnone, heq⟩ | ⟨f, rest, hone, hall⟩
  · refine .inl ⟨(found_readFields ..).trans hnone, ?_⟩
    unfold readFields
    rw [heq]
  · exact .inr ⟨f, rest, (found_readFields ..).trans hone, (found_readFields ..).trans hall⟩

/-- A declaration keeps the faults found before it. -/
theorem prefix_add (p : Progress) (item : Declaration × Nat) :
    p.found <+: (p.add false item).found := by
  obtain ⟨d, i⟩ := item
  unfold add
  dsimp only
  split
  · exact List.prefix_append _ _
  · next head colon segments _ =>
    refine List.IsPrefix.trans ?_ (prefix_readFields _ i _ _ segments)
    rw [found_reportAny]
    exact List.prefix_append _ _

/-- A declaration after no fault is read up to its first fault. -/
theorem isCutOf_add (p : Progress) (item : Declaration × Nat) (hp : p.found = []) :
    IsCutOf found (p.add true item) (p.add false item) := by
  obtain ⟨d, i⟩ := item
  unfold add
  dsimp only
  split
  · -- There is no colon, and nothing is left to be read.
    have hone : ∀ f, ({ p with names := p.names ++ [d.name?] }.report f).found = [f] := by
      simp [report, hp]
    exact .inr ⟨_, [], hone _, hone _⟩
  · next head colon segments _ =>
    cases d.headerFault? p.names i head colon with
    | none =>
      have hnone : ({ p with names := p.names ++ [d.name?] }.reportAny none).found = [] := hp
      rw [hnone]
      exact isCutOf_readFields hnone i _ none segments
    | some f =>
      -- The header is at fault, and its fields are read only without `failFast`.
      have hone : ({ p with names := p.names ++ [d.name?] }.reportAny (some f)).found = [f] := by
        rw [found_reportAny, hp, Option.toList_some, List.nil_append]
      rw [hone, stops_true_cons, if_pos rfl, stops_false, if_neg Bool.false_ne_true]
      exact IsCutOf.of_prefix hone hone (prefix_readFields _ i _ _ segments)

/-- A leaf type adds at most one fault. -/
theorem addsOne_addLeaf : AddsOne found addLeaf := fun _ _ => ⟨_, found_reportAny _ _⟩

/-- Reading declarations with `failFast` comes to the same without any fault, or to the first fault
that is found otherwise. -/
theorem isCutOf_ofDeclarations (ds : List Declaration) :
    IsCutOf found (ofDeclarations true ds) (ofDeclarations false ds) := by
  have hread : IsCutOf found (readAll true ds) (readAll false ds) :=
    isCutOf_inTurn found add prefix_add isCutOf_add rfl _
  unfold ofDeclarations
  dsimp only
  rcases hread with ⟨hnone, heq⟩ | ⟨f, rest, hone, hall⟩
  · rw [heq, hnone]
    exact addsOne_addLeaf.isCutOf_inTurn hnone _
  · rw [hone, stops_true_cons, if_pos rfl, stops_false, if_neg Bool.false_ne_true]
    exact IsCutOf.of_prefix hone hall (prefix_inTurn _ _ addsOne_addLeaf.keeps _ _)

end Progress

/-! ## Checking a schema -/

/-- A field adds at most one fault. -/
theorem FieldCheck.addsOne (isVariant : String → Bool) (ident : String → String) (i : Nat)
    (variant : String) : AddsOne found (FieldCheck.add isVariant ident i variant) := by
  intro c item
  unfold add
  split
  · next f _ => exact ⟨some f, rfl⟩
  · exact ⟨none, (List.append_nil _).symm⟩

namespace Schema

/-- A variant name adds at most one fault. -/
theorem addsOne_variantFault? (s : Schema) : AddsOne id fun found (item : Variant × Nat) =>
    found ++ (s.variantFault? item.2 item.1).toList := fun _ _ => ⟨_, rfl⟩

/-- The fields of a variant come after the faults found before them. -/
theorem prefix_checkVariantFields (s : Schema) (ident : String → String) (found : List Fault)
    (item : Variant × Nat) : found <+: s.checkVariantFields ident false found item :=
  prefix_inTurn _ _ (FieldCheck.addsOne s.isVariant ident item.2 item.1.name).keeps { found } _

/-- The fields of a variant after no fault are checked up to the first fault. -/
theorem isCutOf_checkVariantFields (s : Schema) (ident : String → String) (found : List Fault)
    (item : Variant × Nat) (hfound : found = []) :
    IsCutOf id (s.checkVariantFields ident true found item)
      (s.checkVariantFields ident false found item) := by
  rcases (FieldCheck.addsOne s.isVariant ident item.2 item.1.name).isCutOf_inTurn
    (s := { found }) hfound item.1.fields.zipIdx with ⟨hnone, heq⟩ | hcut
  · exact .inl ⟨hnone, congrArg FieldCheck.found heq⟩
  · exact .inr hcut

/-- A check with `failFast` reports the first fault that is reported otherwise, if there is one. -/
theorem checkAs_failFast (s : Schema) (ident : String → String) :
    s.checkAs ident true = (s.checkAs ident false).take 1 := by
  have hvariants : IsCutOf id (s.checkVariants true) (s.checkVariants false) :=
    s.addsOne_variantFault?.isCutOf_inTurn rfl _
  have hfields : IsCutOf id (s.checkFields ident true []) (s.checkFields ident false []) :=
    isCutOf_inTurn id (s.checkVariantFields ident) (s.prefix_checkVariantFields ident)
      (s.isCutOf_checkVariantFields ident) rfl _
  have hkeep : s.checkVariants false <+: s.checkFields ident false (s.checkVariants false) :=
    prefix_inTurn id _ (s.prefix_checkVariantFields ident) _ _
  have hcut : IsCutOf id (s.checkAs ident true) (s.checkAs ident false) := by
    unfold checkAs
    dsimp only
    rw [stops_false, if_neg Bool.false_ne_true]
    rcases hvariants with ⟨hnone, heq⟩ | ⟨f, rest, hone, hall⟩
    · rw [id] at hnone
      rw [heq, hnone, stops_nil, if_neg Bool.false_ne_true]
      exact hfields
    · rw [id] at hone
      rw [hone, stops_true_cons, if_pos rfl]
      exact IsCutOf.of_prefix rfl hall hkeep
  exact hcut.found_eq

/-- What a check reports is among the faults of the schema, in their order. -/
theorem check_sublist (s : Schema) (exported failFast : Bool) :
    (s.check exported failFast).Sublist (s.faults exported) := by
  cases failFast with
  | false => exact List.Sublist.refl _
  | true =>
    rw [check, checkAs_failFast]
    exact List.take_sublist _ _

end Schema

end NodeFamily
