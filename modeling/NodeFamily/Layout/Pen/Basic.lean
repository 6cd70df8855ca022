import NodeFamily.Layout.Page
import NodeFamily.Layout.Tree

/-!
# Pens

A pen writes the nodes of a syntax tree on the page. As the nodes contain each other without end,
each kind is written with a `Pen` that knows how to write the nodes inside.
-/

namespace NodeFamily.Layout

/-- How to write the nodes inside another. -/
structure Pen where
  /-- Writes an expression among operators that bind as strong as `prec`, `depth` operations deep.
  -/
  expr : (x : Expr) → (prec depth : Nat) → Writing Unit
  /-- Writes a statement; the flag says whether a closing brace follows. -/
  stmt : Stmt → Bool → Writing Unit
  /-- Writes a declaration. -/
  decl : Decl → Writing Unit

namespace Pen

/-- The pen that writes nothing. -/
def dry : Pen := ⟨fun _ _ _ => pure (), fun _ _ => pure (), fun _ => pure ()⟩

/-- Writes an expression that stands alone, so deep among operations. -/
def exprAt (pen : Pen) (x : Expr) (depth : Nat) : Writing Unit := pen.expr x 0 depth

/-- Writes an expression that stands alone. -/
def plain (pen : Pen) (x : Expr) : Writing Unit := pen.expr x 0 1

end Pen

/-- The binding strength of unary operators. -/
def unaryPrecedence : Nat := 6

/-- A binding strength above that of all operators. -/
def highestPrecedence : Nat := 7

/-- The place of the end of the text. -/
def Place.beyond : Place := ⟨1073741824, 1073741824, 0⟩

/-- The page with all that was held back. -/
def Page.finish (p : Page) : Page := ({ p with ready := false }.flush Place.beyond .finish).1

/-- The number of octets that a node takes on one line, or one more than `most` when it takes more
or does not fit on one line. It is written with `act` on a page of its own, without comments. -/
def measured (act : Writing Unit) (most indent : Nat) : Writing Nat := do
  let p ← get
  let q : Page := { table := p.table, normalises := false, comments := [], indent }
  let q := (act.run q).2.finish
  let text := trimInk q.ink.reverse
  let n := octets text
  return if n ≤ most && !text.any Page.isBreak then n else most + 1

end NodeFamily.Layout
