import DuckdbOdata.Execution.WriteExecutor
import DuckdbOdata.Proofs.FilterGrammar

/-! What a planned write is made of: its key column, the members of its body, and
its statement with the parameters. -/

namespace DuckdbOdata.WritePlans
open Text FilterGrammar

/-- The key of a write is the only key column. -/
theorem writeKey_only {entity : EdmEntity} {key : EdmProperty} (found : writeKey entity = .ok key) :
    entity.properties.filter (·.isKey) = [key] := by
  unfold writeKey at found
  split at found
  next => cases found
  next only shape =>
    split at found
    next => cases found
    next =>
      cases found
      exact shape
  next => cases found

theorem writeKey_mem {entity : EdmEntity} {key : EdmProperty} (found : writeKey entity = .ok key) : key ∈ entity.properties := by
  have listed : key ∈ entity.properties.filter (·.isKey) := by
    rw [writeKey_only found]
    exact List.mem_singleton_self key
  exact List.mem_of_mem_filter listed

/-- What a planned write is made of. -/
theorem planWrite_ok {read : BodyReader} {request : HttpRequest} {entity : EdmEntity} {keys : List Str} {plan : WritePlan}
    (planned : planWrite read request entity keys = .ok plan) :
    ∃ key built, writeKey entity = .ok key ∧ (request.method ≠ "POST".toList → keys.length = 1) ∧
      writeAssignments read request entity (request.method = "POST".toList) (request.method = "PATCH".toList) = .ok built ∧
      plan = if request.method = "POST".toList then ⟨insertSql entity built ++ returningClause entity, built.values, key⟩
        else ⟨keyedSql entity key (request.method = "PATCH".toList) built ++ returningClause entity,
          built.values ++ [.text (unquoteKey (keys.headD []))], key⟩ := by
  unfold planWrite at planned
  simp only at planned
  split at planned
  next => cases planned
  split at planned
  next => cases planned
  split at planned
  next => cases planned
  next addressed =>
  obtain ⟨key, found, planned⟩ := bind_ok planned
  obtain ⟨built, assigned, planned⟩ := bind_ok planned
  refine ⟨key, built, found, fun keyed => ?_, assigned, ?_⟩
  · by_contra other
    exact addressed (.inr ⟨keyed, other⟩)
  split at planned
  next insert =>
    rw [if_pos insert]
    cases planned
    rfl
  next keyed =>
    rw [if_neg keyed]
    cases planned
    rfl

end DuckdbOdata.WritePlans
