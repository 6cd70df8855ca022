import NodeFamily.Text.Lowercase
import NodeFamily.Text.Quoted

/-!
# Schemas

The model of one family of expression nodes: a `Schema` lists its `Variant`s in order, and a variant
lists its typed `Field`s. A field whose type is the node type itself is a child expression, and
`Field.classify` marks it so; every other field is a leaf. The mark never depends on what the field
was marked before.
-/

namespace NodeFamily

/-- The name of the node type. A field of this type is a child expression. -/
def nodeName : String := "Expr"

/-- The name of the visitor type that the emitted file declares. -/
def visitorName : String := "Visitor"

/-- How a field refers to its type. -/
inductive Kind
  /-- A field of a type from outside the family. -/
  | leaf
  /-- A child expression. -/
  | recursive
  /-- A number that names no kind, other than zero and one. -/
  | other (n : Int)
deriving DecidableEq, Repr

namespace Kind

/-- The kind that a number stands for. -/
def ofInt (n : Int) : Kind := if n = 0 then .leaf else if n = 1 then .recursive else .other n

/-- The number of a kind. -/
def toInt : Kind → Int
  | .leaf => 0
  | .recursive => 1
  | .other n => n

/-- A number is that of the kind it stands for. -/
@[simp]
theorem toInt_ofInt (n : Int) : (ofInt n).toInt = n := by
  unfold ofInt
  split
  · simp_all [toInt]
  · split <;> simp_all [toInt]

/-- A kind in words. -/
def text : Kind → String
  | .leaf => "leaf"
  | .recursive => "recursive"
  | .other n => "FieldKind(" ++ toString n ++ ")"

/-- The kind that a word names. -/
def ofText? (s : String) : Option Kind :=
  if s = "recursive" then some .recursive else if s = "leaf" then some .leaf else none

/-- The complaint about a word that names no kind. -/
def unknown (s : String) : String := "ir: unknown field kind " ++ Text.quote s

end Kind

/-- One typed field of a variant. -/
structure Field where
  /-- The type as the schema writes it, such as `Expr` or `*token.Token`. -/
  type : String
  /-- The name as the schema writes it. -/
  name : String
  /-- The mark that `classify` sets. -/
  kind : Kind := .leaf
deriving DecidableEq, Repr

/-- Marks a field as a child expression exactly when its type is the node type. -/
def Field.classify (f : Field) : Field :=
  { f with kind := if f.type = nodeName then .recursive else .leaf }

/-- A second marking changes nothing. -/
@[simp]
theorem Field.classify_classify (f : Field) : f.classify.classify = f.classify := rfl

/-- A field is marked as a child expression exactly when its type is the node type. -/
theorem Field.kind_classify_eq_recursive_iff {f : Field} :
    f.classify.kind = .recursive ↔ f.type = nodeName := by
  simp [Field.classify]

/-- One named case of the node family. -/
structure Variant where
  /-- The name of the case. -/
  name : String
  /-- The fields in declared order. -/
  fields : List Field
deriving DecidableEq, Repr

namespace Variant

/-- The visitor method of a variant, in a spelling that belongs to no language. -/
def visitName (v : Variant) : String := "visit_" ++ Text.lower v.name ++ "_expr"

/-- Whether the variant has a child expression. -/
def isRecursive (v : Variant) : Bool := v.fields.any (·.kind = .recursive)

/-- Marks every field of a variant. -/
def classify (v : Variant) : Variant := { v with fields := v.fields.map Field.classify }

end Variant

/-- A node family: its variants in order. -/
structure Schema where
  /-- The variants in declared order. -/
  variants : List Variant
deriving DecidableEq, Repr

namespace Schema

/-- The variant names in declared order. -/
def names (s : Schema) : List String := s.variants.map (·.name)

/-- Marks every field of a schema. -/
def classify (s : Schema) : Schema := ⟨s.variants.map Variant.classify⟩

/-- A second marking changes nothing. -/
@[simp]
theorem classify_classify (s : Schema) : s.classify.classify = s.classify := by
  simp [classify, Variant.classify, Function.comp_def]

/-- Marking keeps the names. -/
@[simp]
theorem names_classify (s : Schema) : s.classify.names = s.names := by
  simp [names, classify, Variant.classify, Function.comp_def]

end Schema

end NodeFamily
