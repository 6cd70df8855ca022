import NodeFamily.Difference.Search
import NodeFamily.Proofs.Difference.Scripts

/-!
# Comparing lists leads from one to the other

Whatever way a comparison divides two lists, the scripts of the parts put together lead from the one
to the other (`leads_compare`). A point to divide at may be any point: the parts before and after it
make up both lists. A common stretch needs a proof that it is one (`Match.Divides`), which rests on
the places where it is looked for lying inside the lists.
-/

namespace NodeFamily.Difference

variable {α : Type}

/-- A script leads from `as` to `bs`: these are what it starts from and what it leads to. -/
structure Leads (script : List (Edit α)) (as bs : List α) : Prop where
  /-- What is kept and deleted. -/
  before_eq : before script = as
  /-- What is kept and inserted. -/
  after_eq : after script = bs

/-! ## Scripts put together -/

/-- The empty script leads from nothing to nothing. -/
theorem Leads.nil : Leads ([] : List (Edit α)) [] [] := ⟨rfl, rfl⟩

/-- Scripts one after the other lead from both lists to both. -/
theorem Leads.append {s t : List (Edit α)} {as bs cs ds : List α} (hs : Leads s as bs)
    (ht : Leads t cs ds) : Leads (s ++ t) (as ++ cs) (bs ++ ds) := by
  obtain ⟨rfl, rfl⟩ := hs
  obtain ⟨rfl, rfl⟩ := ht
  exact ⟨before_append s t, after_append s t⟩

/-- A kept run leads from its items to themselves. -/
theorem leads_keep (items : List α) : Leads [⟨.keep, items⟩] items items := by
  constructor <;> simp [before, after]

/-- A deletion leads from its items to nothing. -/
theorem leads_delete (items : List α) : Leads [⟨.delete, items⟩] items [] := by
  constructor <;> simp [before, after]

/-- An insertion leads from nothing to its items. -/
theorem leads_insert (items : List α) : Leads [⟨.insert, items⟩] [] items := by
  constructor <;> simp [before, after]

/-- Deleting one list and inserting another leads from the one to the other. -/
theorem leads_replace (as bs : List α) : Leads [⟨.delete, as⟩, ⟨.insert, bs⟩] as bs := by
  simpa using (leads_delete as).append (leads_insert bs)

/-- A kept run leads from its items to themselves, and may be left out when it is empty. -/
theorem leads_keep_unless_isEmpty (items : List α) :
    Leads (if items.isEmpty then [] else [⟨.keep, items⟩]) items items := by
  cases items with
  | nil => exact .nil
  | cons a items => exact leads_keep (a :: items)

variable [DecidableEq α]

/-- A tidied script leads where the script leads. -/
theorem Leads.tidy {script : List (Edit α)} {as bs : List α} (h : Leads script as bs) :
    Leads (tidy script) as bs :=
  ⟨(before_tidy script).trans h.before_eq, (after_tidy script).trans h.after_eq⟩

omit [DecidableEq α] in
/-- Kept runs around a script lead from both lists with them to both lists with them. -/
theorem Leads.surround {script : List (Edit α)} {as bs : List α} (h : Leads script as bs)
    (start tail : List α) :
    Leads (surround start script tail) (start ++ as ++ tail) (start ++ bs ++ tail) :=
  ((leads_keep_unless_isEmpty start).append h).append (leads_keep_unless_isEmpty tail)

/-! ## Common stretches -/

/-- A list occurs at the place where it is found. -/
theorem occurrence?_eq_some {pattern list : List α} {position i : Nat}
    (h : occurrence? pattern position list = some i) :
    ∃ k, i = position + k ∧ k ≤ list.length ∧ pattern <+: list.drop k := by
  induction list generalizing position with
  | nil =>
    rw [occurrence?] at h
    split_ifs at h with hempty
    obtain rfl := Option.some.inj h
    rw [List.isEmpty_iff.1 hempty]
    exact ⟨0, rfl, Nat.le_refl _, List.nil_prefix⟩
  | cons a list ih =>
    rw [occurrence?] at h
    split_ifs at h with hprefix
    · obtain rfl := Option.some.inj h
      exact ⟨0, rfl, Nat.zero_le _, List.isPrefixOf_iff_prefix.1 hprefix⟩
    · obtain ⟨k, rfl, hk, hpattern⟩ := ih h
      refine ⟨k + 1, by omega, by rw [List.length_cons]; omega, ?_⟩
      rwa [List.drop_succ_cons]

/-- The places where a seed is found lie inside the list. -/
theorem le_length_of_mem_occurrences {seed short : List α} {fuel j k : Nat}
    (h : k ∈ occurrences seed short fuel j) : k ≤ short.length := by
  induction fuel generalizing j with
  | zero => simp [occurrences] at h
  | succ fuel ih =>
    rw [occurrences] at h
    split_ifs at h with hj
    · split at h
      · next i hi =>
        obtain ⟨m, rfl, hm, -⟩ := occurrence?_eq_some hi
        rw [List.length_drop] at hm
        rcases List.mem_cons.1 h with rfl | h
        · omega
        · exact ih h
      · simp at h
    · simp at h

/-- A match divides both lists at one stretch. -/
structure Match.Divides (m : Match α) (long short : List α) : Prop where
  /-- The longer list is what is before, the stretch and what is after. -/
  longer : long = m.longer.1 ++ m.common ++ m.longer.2
  /-- So is the shorter list. -/
  shorter : short = m.shorter.1 ++ m.common ++ m.shorter.2

omit [DecidableEq α] in
/-- A stretch of a list around a place inside is what lies before the place and what lies after. -/
theorem take_drop_around {list : List α} {i behind ahead : Nat} (hi : i ≤ list.length)
    (hbehind : behind ≤ i) :
    (list.drop (i - behind)).take (behind + ahead) =
      (list.take i).drop ((list.take i).length - behind) ++ (list.drop i).take ahead := by
  have hlength : (list.take i).length = i := by rw [List.length_take]; omega
  rw [List.take_add, hlength, List.drop_take, List.drop_drop]
  congr 2
  · omega
  · congr 1
    omega

omit [DecidableEq α] in
/-- A list is made up of a stretch and what is before and after it. -/
theorem eq_append_stretch (list : List α) {i behind ahead : Nat} (hbehind : behind ≤ i) :
    list = list.take (i - behind) ++ (list.drop (i - behind)).take (behind + ahead) ++
      list.drop (i + ahead) := by
  have hrest : list.drop (i + ahead) = (list.drop (i - behind)).drop (behind + ahead) := by
    rw [List.drop_drop]
    congr 1
    omega
  rw [hrest, List.append_assoc, List.take_append_drop, List.take_append_drop]

/-- The match at a place of the seed in both lists divides them. -/
theorem divides_of_seedMatch {long short : List α} {i j : Nat} (hi : i ≤ long.length)
    (hj : j ≤ short.length) {best? : Option (Match α)}
    (hbest : ∀ m ∈ best?, m.Divides long short) :
    ∀ m ∈ seedMatch long short i best? j, m.Divides long short := by
  unfold seedMatch
  dsimp only
  split_ifs
  · intro m hm
    obtain rfl := Option.some.inj hm
    have hbehind := commonEnd_le (long.take i) (short.take j)
    rw [List.length_take, List.length_take] at hbehind
    -- The stretch is the same in both lists, since its two parts are.
    have hcommon : (short.drop (j - commonEnd (long.take i) (short.take j))).take
          (commonEnd (long.take i) (short.take j) + commonStart (long.drop i) (short.drop j)) =
        (long.drop (i - commonEnd (long.take i) (short.take j))).take
          (commonEnd (long.take i) (short.take j) + commonStart (long.drop i) (short.drop j)) := by
      rw [take_drop_around hi (by omega), take_drop_around hj (by omega), take_commonStart,
        drop_commonEnd]
    constructor
    · dsimp only
      rw [hcommon]
      exact eq_append_stretch long (by omega)
    · exact eq_append_stretch short (by omega)
  · exact hbest

/-- The best match at any places of the seed divides both lists. -/
theorem divides_of_foldl_seedMatch {long short : List α} {i : Nat} (hi : i ≤ long.length)
    {places : List Nat} (hplaces : ∀ j ∈ places, j ≤ short.length) {best? : Option (Match α)}
    (hbest : ∀ m ∈ best?, m.Divides long short) :
    ∀ m ∈ places.foldl (seedMatch long short i) best?, m.Divides long short := by
  induction places generalizing best? with
  | nil => exact hbest
  | cons j places ih =>
    rw [List.forall_mem_cons] at hplaces
    exact ih hplaces.2 (divides_of_seedMatch hi hplaces.1 hbest)

/-- The longest match around the seed divides both lists. -/
theorem divides_of_quarterMatch? {long short : List α} {i : Nat} (hi : i ≤ long.length)
    {m : Match α} (h : quarterMatch? long short i = some m) : m.Divides long short :=
  divides_of_foldl_seedMatch hi (fun _ hj => le_length_of_mem_occurrences hj) (by simp) m
    (Option.filter_eq_some_iff.1 h).1

/-- A common stretch of half the length divides both lists. -/
theorem divides_of_halfMatch? {long short : List α} {m : Match α}
    (h : halfMatch? long short = some m) : m.Divides long short := by
  unfold halfMatch? at h
  split_ifs at h with hshort
  rw [not_or, Nat.not_lt] at hshort
  have hsecond : (long.length + 3) / 4 ≤ long.length := by omega
  have hthird : (long.length + 1) / 2 ≤ long.length := by omega
  split at h
  · exact divides_of_quarterMatch? hthird h
  · exact divides_of_quarterMatch? hsecond h
  · next k l hk hl =>
    split_ifs at h
    · exact divides_of_quarterMatch? hsecond (Option.some.inj h ▸ hk)
    · exact divides_of_quarterMatch? hthird (Option.some.inj h ▸ hl)

/-! ## Dividing -/

/-- A list in which another is found is that one with something before and after it. -/
theorem eq_append_of_occurrence? {long short : List α} {i : Nat}
    (h : occurrence? short 0 long = some i) :
    long = long.take i ++ short ++ long.drop (i + short.length) := by
  obtain ⟨k, hi, -, hshort⟩ := occurrence?_eq_some h
  rw [Nat.zero_add] at hi
  have hrest : short ++ (long.drop i).drop short.length = long.drop i := by
    rw [hi]
    exact List.prefix_iff_eq_append.1 hshort
  rw [List.append_assoc, ← List.drop_drop, hrest, List.take_append_drop]

/-- Dividing leads from one list to the other, when comparing the parts does. -/
theorem leads_divide {recurse : List α → List α → List (Edit α)}
    (hrecurse : ∀ as bs, Leads (recurse as bs) as bs) (as bs : List α) :
    Leads (divide recurse as bs) as bs := by
  -- The parts before and after any point make up both lists.
  have hpoint : ∀ x y, Leads (recurse (as.take x) (bs.take y) ++ recurse (as.drop x) (bs.drop y))
      as bs := by
    intro x y
    have hparts := (hrecurse (as.take x) (bs.take y)).append (hrecurse (as.drop x) (bs.drop y))
    rwa [List.take_append_drop, List.take_append_drop] at hparts
  unfold divide
  by_cases has : as.isEmpty
  · rw [if_pos has, List.isEmpty_iff.1 has]
    exact leads_insert bs
  by_cases hbs : bs.isEmpty
  · rw [if_neg has, if_pos hbs, List.isEmpty_iff.1 hbs]
    exact leads_delete as
  rw [if_neg has, if_neg hbs]
  -- The longer list is searched for the shorter one, whichever of the two it is.
  by_cases hlonger : as.length > bs.length
  · simp only [hlonger, if_true]
    split
    · next i hi =>
      -- The second list lies inside the first.
      have hsplit := ((leads_delete (as.take i)).append (leads_keep bs)).append
        (leads_delete (as.drop (i + bs.length)))
      rwa [← eq_append_of_occurrence? hi, List.nil_append, List.append_nil] at hsplit
    · split_ifs
      · exact leads_replace as bs
      · split
        · next m hm =>
          obtain ⟨hlong, hshort⟩ := divides_of_halfMatch? hm
          have hparts := ((hrecurse m.longer.1 m.shorter.1).append (leads_keep m.common)).append
            (hrecurse m.longer.2 m.shorter.2)
          rwa [← hlong, ← hshort] at hparts
        · split
          · exact hpoint _ _
          · exact leads_replace as bs
  · simp only [hlonger, if_false]
    split
    · next i hi =>
      -- The first list lies inside the second.
      have hsplit := ((leads_insert (bs.take i)).append (leads_keep as)).append
        (leads_insert (bs.drop (i + as.length)))
      rwa [← eq_append_of_occurrence? hi, List.nil_append, List.append_nil] at hsplit
    · split_ifs
      · exact leads_replace as bs
      · split
        · next m hm =>
          obtain ⟨hlong, hshort⟩ := divides_of_halfMatch? hm
          have hparts := ((hrecurse m.shorter.1 m.longer.1).append (leads_keep m.common)).append
            (hrecurse m.shorter.2 m.longer.2)
          rwa [← hlong, ← hshort] at hparts
        · split
          · exact hpoint _ _
          · exact leads_replace as bs

/-- A script between what is left of two lists without their common beginning and end, with these
kept around it, leads from the one to the other. -/
theorem Leads.between {as bs : List α} {script : List (Edit α)} :
    let start := commonStart as bs
    let as' := as.drop start
    let bs' := bs.drop start
    let tail := commonEnd as' bs'
    Leads script (as'.take (as'.length - tail)) (bs'.take (bs'.length - tail)) →
      Leads (Difference.surround (as.take start) script (as'.drop (as'.length - tail))) as bs := by
  intro start as' bs' tail h
  have hstart : as.take start = bs.take start := take_commonStart as bs
  have htail : as'.drop (as'.length - tail) = bs'.drop (bs'.length - tail) := drop_commonEnd as' bs'
  obtain ⟨hbefore, hafter⟩ := h.surround (as.take start) (as'.drop (as'.length - tail))
  constructor
  · rw [hbefore, List.append_assoc, List.take_append_drop, List.take_append_drop]
  · rw [hafter, hstart, htail, List.append_assoc, List.take_append_drop, List.take_append_drop]

/-- Comparing leads from one list to the other, however often it may divide. -/
theorem leads_compareFrom (fuel : Nat) (as bs : List α) : Leads (compareFrom fuel as bs) as bs := by
  induction fuel generalizing as bs with
  | zero => exact leads_replace as bs
  | succ fuel ih =>
    rw [compareFrom]
    split_ifs with hsame hempty
    · subst hsame
      rw [List.isEmpty_iff.1 hempty]
      exact .nil
    · subst hsame
      exact leads_keep as
    · exact (leads_divide ih _ _).between.tidy

/-- Comparing leads from one list to the other. -/
theorem leads_compare (as bs : List α) : Leads (compare as bs) as bs := leads_compareFrom _ as bs

end NodeFamily.Difference
