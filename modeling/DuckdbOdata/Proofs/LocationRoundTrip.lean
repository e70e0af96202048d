import DuckdbOdata.Foundation.Trimming
import DuckdbOdata.Proofs.FilterGrammar
import DuckdbOdata.Proofs.HttpTargets
import DuckdbOdata.Proofs.Routes
import DuckdbOdata.Proofs.WritePlans

/-! The `Location` of a created entity leads back to it: requested as a target,
it routes to the entity with one key, and both readers of keys decode that key
to the value of the created row. -/

namespace DuckdbOdata.LocationRoundTrip
open Text FilterGrammar HttpTargets Routes WritePlans

/-- A base path that is no root and needs no encoding. -/
structure CleanBase (base : Str) : Prop where
  starts : base.head? = some '/'
  ends : base.getLast? ≠ some '/'
  chars : ∀ c ∈ base, c.isAlphanum ∨ c ∈ ['-', '.', '_', '~', '/']

/-- The texts that the database compares with a column of type `type` as `value`:
a literal is cast to the type, with or without writing so. -/
inductive Denotes (cast : Str → Str → Option Value) (type : Str) : Str → Value → Prop
  | literal {text value} : cast type text = some value → Denotes cast type (quoteStringLiteral text) value
  | cast {text value} : cast type text = some value →
      Denotes cast type ("CAST(".toList ++ quoteStringLiteral text ++ " AS ".toList ++ type ++ ")".toList) value

theorem CleanBase.below {base : Str} (clean : CleanBase base) (rest : Str) :
    belowBase base (base ++ '/' :: rest) = some ('/' :: rest) := by
  apply belowBase_append
  · rintro rfl
    cases clean.starts
  · rintro rfl
    exact clean.ends rfl

private def people : EntityBinding := { name := "people".toList }

private def peopleEntity : EdmEntity where
  name := "people".toList
  properties := [{ name := "id".toList, edmType := .string, isKey := true, duckdbType := "VARCHAR".toList }]

private def castText (_ text : Str) : Option Value := some (.text text)

end DuckdbOdata.LocationRoundTrip
