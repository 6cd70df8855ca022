import NodeFamily.Wording

/-!
# Faults

A `Fault` is one broken rule with the place where it is broken. `Fault.message` shows it as a line
of words, path, column and detail, and `summary` shows a list of faults by its first three.

What looks for faults takes items in turn (`inTurn`) and is over as soon as there is a fault, if
that is asked for (`stops`).
-/

namespace NodeFamily

/-- What a fault is about. -/
inductive Place
  /-- The schema as a whole. -/
  | schema
  /-- A declaration, by its index. -/
  | declaration (decl : Nat)
  /-- A field segment of a declaration, by both indices. -/
  | field (decl field : Nat)
deriving DecidableEq, Repr

namespace Place

/-- The place as a pointer into the schema. -/
def path : Place → String
  | .schema => "/"
  | .declaration i => "/" ++ toString i
  | .field i j => "/" ++ toString i ++ "/fields/" ++ toString j

/-- The index of the declaration that the place is in. -/
def decl? : Place → Option Nat
  | .schema => none
  | .declaration i => some i
  | .field i _ => some i

/-- The index of the segment that the place is. -/
def field? : Place → Option Nat
  | .field _ j => some j
  | _ => none

end Place

/-- One broken rule of a schema. -/
structure Fault where
  /-- The rule. -/
  code : Code
  /-- Where it is broken. -/
  place : Place
  /-- The column inside the declaration, from one, where it is known. -/
  column? : Option Nat := none
  /-- The declaration or segment at fault. -/
  text : String := ""
  /-- What is wrong with it. -/
  detail : String := ""
deriving DecidableEq, Repr

namespace Fault

/-- A fault in one line. -/
def message (w : Wording) (f : Fault) : String :=
  w.message f.code ++ " at " ++ f.place.path ++
    (match f.column? with
      | some n => " (column " ++ toString n ++ ")"
      | none => "") ++
    (if f.detail = "" then "" else ": " ++ f.detail)

/-- The codes of this library that the fault has: its own, when it is one of them. -/
def codes (f : Fault) : List Code := Code.known.filter (· = f.code)

end Fault

/-- Whether a search that has found these faults is over: with `failFast` the first one ends it. -/
def stops (failFast : Bool) (found : List Fault) : Bool := failFast && !found.isEmpty

@[simp]
theorem stops_false (found : List Fault) : stops false found = false := rfl

@[simp]
theorem stops_nil (failFast : Bool) : stops failFast [] = false := Bool.and_false _

@[simp]
theorem stops_true_cons (f : Fault) (found : List Fault) : stops true (f :: found) = true := rfl

/-- Takes items in turn, each by a `step` from the state before it, of which `found` are the faults.
With `failFast` no item is taken after one that leaves a fault. -/
def inTurn {σ α : Type} (failFast : Bool) (found : σ → List Fault) (step : σ → α → σ) :
    σ → List α → σ
  | s, [] => s
  | s, a :: rest =>
    let s := step s a
    if stops failFast (found s) then s else inTurn failFast found step s rest

/-- After the first item there is an end, or the others are taken. -/
theorem inTurn_cons {σ α : Type} (failFast : Bool) (found : σ → List Fault) (step : σ → α → σ)
    (s : σ) (a : α) (items : List α) :
    inTurn failFast found step s (a :: items) =
      if stops failFast (found (step s a)) then step s a
      else inTurn failFast found step (step s a) items := rfl

/-- How many faults a summary shows. -/
def summaryLimit : Nat := 3

/-- The first faults of a list in one line, and how many there are when more are left. -/
def summary (w : Wording) (faults : List Fault) : String :=
  "; ".intercalate ((faults.take summaryLimit).map (Fault.message w)) ++
    (if faults.length > summaryLimit then "; ... (total " ++ toString faults.length ++ ")" else "")

/-- The codes of this library that occur in a list of faults, in their fixed order. -/
def codesOf (faults : List Fault) : List Code :=
  Code.known.filter fun c => faults.any (·.code = c)

/-- How a list of faults travels inside another error. -/
inductive Carrier
  /-- The list is the error. -/
  | bare
  /-- The list stands beside another error. -/
  | joined
  /-- The list stands inside a longer message. -/
  | prefixed
  /-- Only the text of the list is left. -/
  | textOnly
  /-- There is no error. -/
  | nothing
deriving DecidableEq, Repr

/-- The faults that can be found again in what carries them. -/
def Carrier.faults? (c : Carrier) (faults : List Fault) : Option (List Fault) :=
  match c with
  | .bare | .joined | .prefixed => some faults
  | .textOnly | .nothing => none

end NodeFamily
