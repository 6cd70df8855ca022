import NodeFamily.NameRule

/-!
# The result parameter

Every emitted type is generic in the result of a visit. Its type parameter must not hide a name of
the schema, so `resultParam` takes the first candidate that the schema does not use.
-/

namespace NodeFamily.Emission

/-- The names that a schema uses: the two generic types, its variants, its fields, and the field
types without their star. -/
def usedNames (s : Schema) : List String :=
  nodeName :: visitorName :: s.variants.flatMap fun v =>
    v.name :: v.fields.flatMap fun f => [f.name, typeBase f.type]

/-- The names tried before the numbered ones. -/
def preferredParams : List String := ["R", "Result", "RT", "RV"]

/-- The numbered name `R1`, `R2` and so on for `0`, `1` and so on. -/
def numberedParam (n : Nat) : String := "R" ++ toString (n + 1)

/-- The first name in the order `R`, `Result`, `RT`, `RV`, `R1`, `R2` and so on that is not used.
There are more numbered names to try than names in use, so the search always ends in one. -/
def resultParam (s : Schema) : String :=
  let used := usedNames s
  let candidates := preferredParams ++ (List.range (used.length + 1)).map numberedParam
  (candidates.find? fun c => !used.contains c).getD (numberedParam used.length)

end NodeFamily.Emission
