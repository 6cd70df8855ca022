import Mathlib.Tactic.SplitIfs
import NodeFamily.FileTree

/-!
# Changes of a tree

What stays the same when a tree of files is changed. Making directories only adds directories where
nothing stood (`addsDirectories_makeBelow`), and makes nothing when they are all there
(`makeBelow_of_hasDirectories`). As long as no directory is lost, every path leads to the place that
it led to (`KeepsDirectories.locate`), since it is only directories that a path goes through. So the
file at a path is read as before when its place is untouched (`read_of_keepsDirectories`), and as it
was written when it is the one that was written (`read_of_write`).
-/

namespace NodeFamily.FileTree

variable {t t' t'' : FileTree}

/-- All directories of a tree are directories of another. -/
def KeepsDirectories (t t' : FileTree) : Prop :=
  ∀ place, t.get? place = some .directory → t'.get? place = some .directory

/-- A tree differs from another at most by directories where nothing stood. -/
def AddsDirectories (t t' : FileTree) : Prop :=
  ∀ place, t'.get? place = t.get? place ∨
    (t.get? place = none ∧ t'.get? place = some .directory)

/-- No tree adds anything to itself. -/
theorem AddsDirectories.refl (t : FileTree) : AddsDirectories t t := fun _ => .inl rfl

/-- Directories may be added after others. -/
theorem AddsDirectories.trans (h : AddsDirectories t t') (h' : AddsDirectories t' t'') :
    AddsDirectories t t'' := by
  intro place
  rcases h' place with hsame | ⟨hnone, hdir⟩
  · rw [hsame]
    exact h place
  · rcases h place with hsame | ⟨-, hdir'⟩
    · exact .inr ⟨hsame ▸ hnone, hdir⟩
    · rw [hnone] at hdir'
      exact absurd hdir' (by simp)

/-- What stood at a place still stands there when directories are added. -/
theorem AddsDirectories.get?_eq_some (h : AddsDirectories t t') {place : List String} {e : Entry}
    (he : t.get? place = some e) : t'.get? place = some e := by
  rcases h place with hsame | ⟨hnone, -⟩
  · rw [hsame, he]
  · rw [he] at hnone
    exact absurd hnone (by simp)

/-- Adding directories loses none. -/
theorem AddsDirectories.keepsDirectories (h : AddsDirectories t t') : KeepsDirectories t t' :=
  fun _ => h.get?_eq_some

/-- Putting something where no directory stands loses no directory. -/
theorem keepsDirectories_set {place : List String} (entry : Entry)
    (h : t.get? place ≠ some .directory) : KeepsDirectories t (t.set place entry) := by
  intro other hother
  have hne : other ≠ place := fun heq => h (heq ▸ hother)
  rw [get?_set_of_ne t entry hne, hother]

/-- Taking away what is no directory loses no directory. -/
theorem keepsDirectories_erase {place : List String} (h : t.get? place ≠ some .directory) :
    KeepsDirectories t (t.erase place) := by
  intro other hother
  have hne : other ≠ place := fun heq => h (heq ▸ hother)
  rw [get?_erase_of_ne t hne, hother]

/-- Nothing stands where something was taken away. -/
theorem get?_erase_self (t : FileTree) {place : List String} (h : place ≠ []) :
    (t.erase place).get? place = none := by
  rw [get?, erase, if_neg (by simpa using h), List.lookup_eq_none_iff]
  intro e he
  have hne := of_decide_eq_true (List.mem_filter.1 he).2
  exact bne_iff_ne.2 hne.symm

/-- A directory where nothing stood is only added. -/
theorem addsDirectories_set {place : List String} (h : t.get? place = none) :
    AddsDirectories t (t.set place .directory) := by
  intro other
  by_cases heq : other = place
  · subst heq
    refine .inr ⟨h, get?_set_self t _ fun hnil => ?_⟩
    rw [hnil, get?_nil] at h
    exact absurd h (by simp)
  · exact .inl (get?_set_of_ne t _ heq)

/-! ## Making directories -/

/-- Making directories only adds directories, also when it fails. -/
theorem addsDirectories_makeBelow (t : FileTree) (made names : List String) :
    AddsDirectories t (t.makeBelow made names).2 := by
  induction names generalizing t made with
  | nil => exact .refl t
  | cons name rest ih =>
    unfold makeBelow
    dsimp only
    split
    · exact ih t _
    · exact .refl t
    · next hnone =>
      split
      · exact .refl t
      · exact (addsDirectories_set hnone).trans (ih _ _)

/-- The directories with the given names, one inside the other below `made`, are all there. -/
def HasDirectories (t : FileTree) (made : List String) : List String → Prop
  | [] => True
  | name :: rest =>
    t.get? (made ++ [name]) = some .directory ∧ HasDirectories t (made ++ [name]) rest

/-- Directories stay there as long as none is lost. -/
theorem HasDirectories.mono {made names : List String} (h : HasDirectories t made names)
    (hkeep : KeepsDirectories t t') : HasDirectories t' made names := by
  induction names generalizing made with
  | nil => trivial
  | cons name rest ih => exact ⟨hkeep _ h.1, ih h.2⟩

/-- When directories are made without failure they are all there. -/
theorem hasDirectories_makeBelow {made names : List String}
    (h : (t.makeBelow made names).1 = .ok ()) :
    HasDirectories (t.makeBelow made names).2 made names := by
  induction names generalizing t made with
  | nil => trivial
  | cons name rest ih =>
    have hkeep := fun t' : FileTree => (addsDirectories_makeBelow t' (made ++ [name]) rest)
    unfold makeBelow at h ⊢
    dsimp only at h ⊢
    split at h
    · next hdir =>
      exact ⟨(hkeep t).get?_eq_some hdir, ih h⟩
    · simp at h
    · split at h
      · simp at h
      · exact ⟨(hkeep _).get?_eq_some (get?_set_self t _ (by simp)), ih h⟩

/-- Where all directories are there, none is made. -/
theorem makeBelow_of_hasDirectories {made names : List String} (h : HasDirectories t made names) :
    t.makeBelow made names = (.ok (), t) := by
  induction names generalizing made with
  | nil => rfl
  | cons name rest ih =>
    unfold makeBelow
    simp only [h.1]
    exact ih h.2

/-! ## Paths -/

/-- A step leads to the same directory as long as none is lost. -/
theorem KeepsDirectories.step (h : KeepsDirectories t t') {here there : List String}
    {name : String} (hstep : t.step here name = .ok there) : t'.step here name = .ok there := by
  unfold FileTree.step at hstep ⊢
  split_ifs at hstep ⊢ with hstay hup hlong
  · exact hstep
  · exact hstep
  · split at hstep
    · next hdir => rw [h _ hdir]; exact hstep
    · simp at hstep
    · simp at hstep

/-- Steps lead to the same directory as long as none is lost. -/
theorem KeepsDirectories.walk (h : KeepsDirectories t t') {here there names : List String}
    (hwalk : t.walk here names = .ok there) : t'.walk here names = .ok there := by
  induction names generalizing here with
  | nil => exact hwalk
  | cons name rest ih =>
    unfold FileTree.walk at hwalk ⊢
    rw [List.foldlM_cons] at hwalk ⊢
    cases hstep : t.step here name with
    | error e =>
      rw [hstep] at hwalk
      exact absurd hwalk (by simp [bind, Except.bind])
    | ok next =>
      rw [hstep] at hwalk
      rw [h.step hstep]
      exact ih hwalk

/-- A path leads to the same place as long as no directory is lost. -/
theorem KeepsDirectories.locate (h : KeepsDirectories t t') {path : String} {place : List String}
    (hlocate : t.locate path = .ok place) : t'.locate path = .ok place := by
  unfold FileTree.locate at hlocate ⊢
  split at hlocate
  · simp at hlocate
  · dsimp only at hlocate ⊢
    split at hlocate
    · simp at hlocate
    · next there hwalk =>
      rw [h.walk hwalk]
      dsimp only
      split_ifs at hlocate ⊢
      · exact h.step hlocate
      · exact hlocate

/-- A path to a file leads to the place where the file stands. -/
theorem read_eq_ok_iff {path content : String} :
    t.read path = .ok content ↔
      ∃ place, t.locate path = .ok place ∧ t.get? place = some (.file content) := by
  unfold read
  cases t.locate path with
  | error e => simp
  | ok place =>
    cases hget : t.get? place with
    | none => simp [hget]
    | some e => cases e <;> simp [hget]

/-- A file can be written at a path that leads to a place that is no directory, and nowhere else. -/
theorem write_eq_ok_iff {path content : String} :
    t.write path content = .ok t' ↔ ∃ place, t.locate path = .ok place ∧
      t.get? place ≠ some .directory ∧ t.set place (.file content) = t' := by
  unfold write
  cases t.locate path with
  | error e => simp
  | ok place =>
    cases hget : t.get? place with
    | none => simp [hget]
    | some e => cases e <;> simp [hget]

/-- A file is read as before when no directory is lost and its place is untouched. -/
theorem read_of_keepsDirectories (h : KeepsDirectories t t') {path content : String}
    {place : List String} (hlocate : t.locate path = .ok place)
    (hsame : t'.get? place = t.get? place) (hread : t.read path = .ok content) :
    t'.read path = .ok content := by
  obtain ⟨place', hlocate', hget⟩ := read_eq_ok_iff.1 hread
  obtain rfl : place' = place := Except.ok.inj (hlocate'.symm.trans hlocate)
  exact read_eq_ok_iff.2 ⟨place', h.locate hlocate, hsame.trans hget⟩

end NodeFamily.FileTree
