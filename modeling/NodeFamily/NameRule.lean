import NodeFamily.Identifier
import NodeFamily.Schema
import NodeFamily.Text.Cut

/-!
# Rules for names and types

What a variant, a field and a field type may be called. Each rule answers with the first
`NameProblem` it finds, and `NameProblem.text` puts the problem into words.
-/

namespace NodeFamily

/-- The method that every variant has, which no field may be called. -/
def acceptName : String := "Accept"

/-- Why a name or a type is not allowed. -/
inductive NameProblem
  /-- A variant name that names nothing. -/
  | variantNotName (name : String)
  /-- A variant name that the emitted file uses itself. -/
  | variantReserved (name : String)
  /-- A field name that names nothing. -/
  | fieldNotName (name : String)
  /-- A field called like its variant. -/
  | fieldRepeatsVariant (name : String)
  /-- A field emitted under the name of the accepting method. -/
  | fieldClashes (name : String)
  /-- A type that is no type name. -/
  | typeNotName (type : String)
  /-- A leaf type that is one of the two generic types of the emitted file. -/
  | typeIsGeneric (type base : String)
  /-- A leaf type that is a variant. -/
  | typeIsVariant (type base : String)
deriving DecidableEq, Repr

/-- A problem in words. -/
def NameProblem.text : NameProblem → String
  | .variantNotName n => "variant name must be a single identifier, got " ++ Text.quote n
  | .variantReserved n => "variant name " ++ Text.quote n ++ " is reserved"
  | .fieldNotName n => "field name " ++ Text.quote n ++ " is not a Go identifier"
  | .fieldRepeatsVariant n => "field name " ++ Text.quote n ++ " repeats its variant name"
  | .fieldClashes n => "field " ++ Text.quote n ++ " clashes with the Accept method"
  | .typeNotName t => "invalid type name " ++ Text.quote t
  | .typeIsGeneric t b =>
    "type " ++ Text.quote t ++ " refers to generated generic " ++ b ++
      "; use Expr for child expressions"
  | .typeIsVariant t b =>
    "type " ++ Text.quote t ++ " refers to generated variant " ++ b ++
      "; use Expr for child expressions"

/-- A type without its star, if it begins with one. -/
def typeBase (t : String) : String :=
  match t.toList with
  | '*' :: rest => String.ofList rest
  | _ => t

/-- Whether a type is a name or a name in a package, after at most one star. -/
def isTypeName (t : String) : Bool :=
  let parts := Text.cutAt '.' (typeBase t).toList
  parts.length ≤ 2 && parts.all fun part => isName (String.ofList part)

/-- What is wrong with a field type, where `isVariant` tells the names of variants. -/
def typeProblem? (isVariant : String → Bool) (t : String) : Option NameProblem :=
  if t = nodeName then none
  else if !isTypeName t then some (.typeNotName t)
  else
    let base := typeBase t
    if base = nodeName ∨ base = visitorName then some (.typeIsGeneric t base)
    else if isVariant base then some (.typeIsVariant t base)
    else none

/-- What is wrong with a variant name. -/
def variantProblem? (n : String) : Option NameProblem :=
  if !isName n then some (.variantNotName n)
  else if n = nodeName ∨ n = visitorName then some (.variantReserved n)
  else none

/-- What is wrong with the name of a field of `variant` that is emitted as `ident`. -/
def fieldProblem? (n ident variant : String) : Option NameProblem :=
  if !isName n then some (.fieldNotName n)
  else if n = variant then some (.fieldRepeatsVariant n)
  else if ident = acceptName then some (.fieldClashes n)
  else none

end NodeFamily
