/-!
# Fault codes and their wording

A `Code` says what kind of rule a schema breaks, and a `Wording` gives the words for it: one of two
dictionaries, or a label put before the code's own name. A code outside the six of this library is
worded by its own name.
-/

namespace NodeFamily

/-- The rule that a fault breaks. -/
inductive Code
  /-- There is nothing to generate. -/
  | emptySchema
  /-- A declaration has no colon. -/
  | missingSeparator
  /-- A segment is not a type and a name. -/
  | malformedField
  /-- Two variants share a name. -/
  | duplicateVariant
  /-- Two fields of a variant share a name. -/
  | duplicateField
  /-- A name or a type is not allowed. -/
  | invalidName
  /-- A code of a caller's own. -/
  | custom (name : String)
deriving DecidableEq, Repr

namespace Code

/-- The six codes of this library, in their fixed order. -/
def known : List Code :=
  [.emptySchema, .missingSeparator, .malformedField, .duplicateVariant, .duplicateField,
    .invalidName]

/-- The name of a code. -/
def name : Code → String
  | .emptySchema => "empty_schema"
  | .missingSeparator => "missing_separator"
  | .malformedField => "malformed_field"
  | .duplicateVariant => "duplicate_variant"
  | .duplicateField => "duplicate_field"
  | .invalidName => "invalid_name"
  | .custom n => n

/-- The code of a name. -/
def ofName (n : String) : Code := (known.find? (·.name = n)).getD (.custom n)

/-- A name is that of its code. -/
@[simp]
theorem name_ofName (n : String) : (ofName n).name = n := by
  unfold ofName
  cases h : known.find? (·.name = n) with
  | none => rfl
  | some c => simpa using List.find?_some h

end Code

/-- The languages with a dictionary. -/
inductive Language
  | english
  | japanese
deriving DecidableEq, Repr

/-- The language of a tag. Every tag but `ja` means English. -/
def Language.ofTag (tag : String) : Language := if tag = "ja" then .japanese else .english

/-- A code in the words of a language. -/
def Language.words : Language → Code → String
  | .english, .emptySchema => "empty schema"
  | .english, .missingSeparator => "missing separator"
  | .english, .malformedField => "malformed field"
  | .english, .duplicateVariant => "duplicate variant"
  | .english, .duplicateField => "duplicate field"
  | .english, .invalidName => "invalid name"
  | .japanese, .emptySchema => "スキーマが空です"
  | .japanese, .missingSeparator => "区切り文字 ':' がありません"
  | .japanese, .malformedField => "フィールドの形式が不正です"
  | .japanese, .duplicateVariant => "バリアント名が重複しています"
  | .japanese, .duplicateField => "フィールド名が重複しています"
  | .japanese, .invalidName => "名前が不正です"
  | _, .custom n => n

/-- Where the words for a code come from. -/
inductive Wording
  /-- The dictionary of a language. -/
  | dictionary (language : Language)
  /-- A label before the code's name. -/
  | labelled (label : String)
deriving DecidableEq, Repr

/-- The wording before anyone chooses another. -/
def Wording.default : Wording := .dictionary .english

/-- The words for a code. -/
def Wording.message : Wording → Code → String
  | .dictionary l, c => l.words c
  | .labelled label, c => label ++ c.name

end NodeFamily
