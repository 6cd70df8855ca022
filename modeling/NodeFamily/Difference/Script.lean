/-!
# Edit scripts

An edit script says how one list becomes another: a list of runs that are kept, deleted or inserted.
`before` and `after` are the two lists it relates. `tidy` brings a script into the form in which it
is shown: neighbouring runs are merged, what a deletion and an insertion have in common is kept
instead, and a run between two kept ones is moved sideways where that makes one of them disappear.
-/

namespace NodeFamily.Difference

/-- What happens to a run of items. -/
inductive Action
  | keep
  | delete
  | insert
deriving DecidableEq, Repr

/-- A run of items with what happens to it. -/
structure Edit (α : Type) where
  /-- What happens. -/
  action : Action
  /-- The items in order. -/
  items : List α
deriving DecidableEq, Repr

variable {α : Type} [DecidableEq α]

/-- The list that a script starts from: what it keeps and deletes. -/
def before (script : List (Edit α)) : List α :=
  script.flatMap fun e => if e.action = .insert then [] else e.items

/-- The list that a script leads to: what it keeps and inserts. -/
def after (script : List (Edit α)) : List α :=
  script.flatMap fun e => if e.action = .delete then [] else e.items

omit [DecidableEq α] in
@[simp]
theorem before_append (s t : List (Edit α)) : before (s ++ t) = before s ++ before t := by
  simp [before]

omit [DecidableEq α] in
@[simp]
theorem after_append (s t : List (Edit α)) : after (s ++ t) = after s ++ after t := by
  simp [after]

/-- The length of the longest common beginning of two lists. -/
def commonStart : List α → List α → Nat
  | a :: as, b :: bs => if a = b then commonStart as bs + 1 else 0
  | _, _ => 0

/-- The length of the longest common end of two lists. -/
def commonEnd (as bs : List α) : Nat := commonStart as.reverse bs.reverse

/-- A run of deletions and insertions between two kept runs. -/
structure Pending (α : Type) where
  /-- The number of deletions. -/
  deletions : Nat := 0
  /-- The number of insertions. -/
  insertions : Nat := 0
  /-- All that is deleted. -/
  deleted : List α := []
  /-- All that is inserted. -/
  inserted : List α := []

namespace Pending

omit [DecidableEq α] in
/-- The pending run as at most one deletion and one insertion. -/
def edits (p : Pending α) : List (Edit α) :=
  (if p.deletions = 0 then [] else [⟨.delete, p.deleted⟩]) ++
    (if p.insertions = 0 then [] else [⟨.insert, p.inserted⟩])

end Pending

omit [DecidableEq α] in
/-- Adds kept items to the end of a script, which is given backwards. -/
def keepMore (items : List α) : List (Edit α) → List (Edit α)
  | ⟨.keep, kept⟩ :: rest => ⟨.keep, kept ++ items⟩ :: rest
  | rest => ⟨.keep, items⟩ :: rest

/-- Ends a pending run before the kept `items`. `done` is the finished script, backwards. What a
deletion and an insertion have in common at the start goes to the kept run before them, and what
they have in common at the end goes to `items`. -/
def settle (done : List (Edit α)) (p : Pending α) (items : List α) : List (Edit α) :=
  if p.deletions + p.insertions ≤ 1 then
    match p.edits with
    | [] => keepMore items done
    | edits => ⟨.keep, items⟩ :: (edits.reverse ++ done)
  else if p.deletions = 0 ∨ p.insertions = 0 then
    ⟨.keep, items⟩ :: (p.edits.reverse ++ done)
  else
    let start := commonStart p.inserted p.deleted
    let done := if start = 0 then done else keepMore (p.inserted.take start) done
    let deleted := p.deleted.drop start
    let inserted := p.inserted.drop start
    let tail := commonEnd inserted deleted
    let shared := inserted.drop (inserted.length - tail)
    ⟨.keep, shared ++ items⟩ :: ⟨.insert, inserted.take (inserted.length - tail)⟩ ::
      ⟨.delete, deleted.take (deleted.length - tail)⟩ :: done

/-- Merges the runs of a script. The result is backwards, and ends in a kept run. -/
def mergeFrom (done : List (Edit α)) (p : Pending α) : List (Edit α) → List (Edit α)
  | [] => settle done p []
  | ⟨.delete, items⟩ :: rest =>
    mergeFrom done
      { p with deletions := p.deletions + 1, deleted := p.deleted ++ items } rest
  | ⟨.insert, items⟩ :: rest =>
    mergeFrom done
      { p with insertions := p.insertions + 1, inserted := p.inserted ++ items } rest
  | ⟨.keep, items⟩ :: rest => mergeFrom (settle done p items) {} rest

/-- Merges the runs of a script and drops the empty kept run at its end. -/
def merge (script : List (Edit α)) : List (Edit α) :=
  match mergeFrom [] {} script with
  | ⟨_, []⟩ :: rest => rest.reverse
  | done => done.reverse

/-- Moves runs between two kept ones sideways. A run that ends in the whole kept run before it moves
to the front of it; one that begins with the whole kept run after it moves to the end of that. The
first component says whether any run moved. -/
def shift (previous : Edit α) : List (Edit α) → Bool × List (Edit α)
  | run :: next :: rest =>
    if previous.action = .keep ∧ next.action = .keep then
      if previous.items.isSuffixOf run.items then
        let stem := run.items.take (run.items.length - previous.items.length)
        let (_, rest) := shift ⟨.keep, previous.items ++ next.items⟩ rest
        (true, ⟨run.action, previous.items ++ stem⟩ :: rest)
      else if next.items.isPrefixOf run.items then
        let (_, rest) :=
          shift ⟨run.action, run.items.drop next.items.length ++ next.items⟩ rest
        (true, ⟨.keep, previous.items ++ next.items⟩ :: rest)
      else
        let (moved, rest) := shift run (next :: rest)
        (moved, previous :: rest)
    else
      let (moved, rest) := shift run (next :: rest)
      (moved, previous :: rest)
  | rest => (false, previous :: rest)
termination_by rest => rest.length

/-- Merges and shifts until nothing moves, at most `fuel` times. -/
def tidyFrom : (fuel : Nat) → List (Edit α) → List (Edit α)
  | 0, script => merge script
  | fuel + 1, script =>
    match merge script with
    | [] => []
    | first :: rest =>
      let (moved, script) := shift first rest
      if moved then tidyFrom fuel script else script

/-- A script in the form in which it is shown. -/
def tidy (script : List (Edit α)) : List (Edit α) :=
  tidyFrom (script.foldl (fun n e => n + e.items.length) script.length) script

end NodeFamily.Difference
