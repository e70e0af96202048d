import DuckdbOdata.Proofs.FilterGrammar
import DuckdbOdata.Server.ODataServer

/-! What `buildEntity` and the column policy make of the live columns. -/

namespace DuckdbOdata.Entities
open Text FilterGrammar

/-- What a resolved entity takes from the live columns. -/
theorem buildEntity_live {catalog : Catalog} {binding : EntityBinding} {built : EdmEntity}
    (resolved : buildEntity catalog binding = .ok built) :
    ∃ first others keys, catalog.columns (scopeOf binding) = .ok (first :: others) ∧
      resolveKeys catalog binding ((first :: others).map propertyOf) = .ok keys ∧
      built = {
        name := binding.name
        catalog := first.databaseName
        schema := first.schemaName
        table := binding.table
        properties := ((first :: others).map propertyOf).map (markKey keys)
        hasKey := keys ≠ [] } := by
  obtain ⟨columns, answered, resolved⟩ := bind_ok resolved
  have live : catalog.columns (scopeOf binding) = .ok columns := by
    unfold introspected at answered
    split at answered
    next value same => cases answered; exact same
    next => cases answered
  cases columns with
  | nil => cases resolved
  | cons first others =>
    obtain ⟨keys, chosen, same⟩ := bind_ok resolved
    cases same
    exact ⟨first, others, keys, live, chosen, rfl⟩

/-- The properties of a resolved entity are the live columns. -/
theorem buildEntity_columns {catalog : Catalog} {binding : EntityBinding} {built : EdmEntity}
    (resolved : buildEntity catalog binding = .ok built) :
    ∃ columns keys, catalog.columns (scopeOf binding) = .ok columns ∧
      built.properties = (columns.map propertyOf).map (markKey keys) := by
  obtain ⟨first, others, keys, live, -, rfl⟩ := buildEntity_live resolved
  exact ⟨_, keys, live, rfl⟩

theorem markKey_same (keys : List Str) (prop : EdmProperty) :
    (markKey keys prop).name = prop.name ∧ (markKey keys prop).duckdbType = prop.duckdbType := by
  unfold markKey
  split <;> exact ⟨rfl, rfl⟩

theorem markKey_typed (keys : List Str) (prop : EdmProperty) :
    (markKey keys prop).edmType = prop.edmType ∧ (markKey keys prop).serializable = prop.serializable := by
  unfold markKey
  split <;> exact ⟨rfl, rfl⟩

theorem buildEntity_property {catalog : Catalog} {binding : EntityBinding} {built : EdmEntity} {prop : EdmProperty}
    (resolved : buildEntity catalog binding = .ok built) (member : prop ∈ built.properties) :
    ∃ columns, catalog.columns (scopeOf binding) = .ok columns ∧
      ∃ row ∈ columns, prop.name = row.columnName ∧ prop.duckdbType = row.dataType := by
  obtain ⟨columns, keys, live, same⟩ := buildEntity_columns resolved
  rw [same, List.map_map] at member
  obtain ⟨row, listed, rfl⟩ := List.mem_map.mp member
  exact ⟨columns, live, row, listed, markKey_same keys (propertyOf row)⟩

/-- What is true of the types of the current columns is true of those of the
properties. -/
theorem buildEntity_types {catalog : Catalog} {binding : EntityBinding} {built : EdmEntity} (holds : Str → Prop)
    (types : ∀ columns, catalog.columns (scopeOf binding) = .ok columns → ∀ row ∈ columns, holds row.dataType)
    (resolved : buildEntity catalog binding = .ok built) : ∀ prop ∈ built.properties, holds prop.duckdbType := by
  intro prop member
  obtain ⟨columns, live, row, listed, -, type⟩ := buildEntity_property resolved member
  rw [type]
  exact types columns live row listed

/-- The policy only leaves properties out. -/
theorem applyColumnPolicy_property {built : EdmEntity} {binding : EntityBinding} {prop : EdmProperty} :
    prop ∈ (applyColumnPolicy built binding).properties ↔ prop ∈ built.properties ∧
      (binding.configuredColumns = [] ∨ ∃ column ∈ binding.configuredColumns, sameName prop.name column) := by
  unfold applyColumnPolicy
  split
  next every => simp [every]
  next listed => simp [List.mem_filter, listed]

private theorem findNamed_name {props : List EdmProperty} {name : Str} {prop : EdmProperty}
    (found : findNamed props name = some prop) : prop ∈ props := List.mem_of_find?_eq_some found

private theorem configuredKey_name {binding : EntityBinding} {props : List EdmProperty} {configured key : Str}
    (done : configuredKey binding props configured = .ok key) : ∃ prop ∈ props, prop.name = key := by
  unfold configuredKey at done
  split at done
  next prop found => cases done; exact ⟨prop, findNamed_name found, rfl⟩
  next => cases done

private theorem catalogKey_name {props : List EdmProperty} {constraints : List (List Str)} {key : Str}
    (chosen : catalogKey props constraints = some key) : ∃ prop ∈ props, prop.name = key := by
  induction constraints using catalogKey.induct props with
  | case1 => cases chosen
  | case2 others name prop found =>
    simp only [catalogKey, found] at chosen
    cases chosen
    exact ⟨prop, findNamed_name found, rfl⟩
  | case3 others name missing ih =>
    simp only [catalogKey, missing] at chosen
    exact ih chosen
  | case4 head others other ih =>
    rw [catalogKey] at chosen
    · exact ih chosen
    · exact other

/-- The chosen keys name properties, and there is one. -/
theorem resolveKeys_named {catalog : Catalog} {binding : EntityBinding} {props : List EdmProperty} {keys : List Str}
    (some : props ≠ []) (done : resolveKeys catalog binding props = .ok keys) : ∃ key ∈ keys, ∃ prop ∈ props, prop.name = key := by
  unfold resolveKeys at done
  split at done
  next configured =>
    match configuredKeys : binding.configuredKeys, configured with
    | first :: others, _ =>
      rw [configuredKeys, List.mapM_cons] at done
      obtain ⟨key, chosen, done⟩ := bind_ok done
      obtain ⟨rest, -, same⟩ := bind_ok done
      cases same
      exact ⟨key, List.mem_cons_self, configuredKey_name chosen⟩
  next =>
    obtain ⟨constraints, -, done⟩ := bind_ok done
    split at done
    next key chosen =>
      cases done
      exact ⟨key, List.mem_cons_self, catalogKey_name chosen⟩
    next =>
      cases done
      match props, some with
      | first :: others, _ => exact ⟨first.name, List.mem_cons_self, first, List.mem_cons_self, rfl⟩

/-- An entity has a key exactly if one of its properties is marked as one. -/
theorem buildEntity_hasKey {catalog : Catalog} {binding : EntityBinding} {built : EdmEntity}
    (resolved : buildEntity catalog binding = .ok built) : built.hasKey = true ↔ ∃ prop ∈ built.properties, prop.isKey = true := by
  obtain ⟨first, others, keys, -, chosen, rfl⟩ := buildEntity_live resolved
  obtain ⟨key, listed, prop, member, named⟩ := resolveKeys_named (List.cons_ne_nil _ _) chosen
  have marked : (markKey keys prop).isKey = true := by
    unfold markKey
    rw [if_pos]
    rw [List.any_eq_true]
    exact ⟨key, listed, decide_eq_true (congrArg toLower named)⟩
  constructor
  · exact fun _ => ⟨_, List.mem_map_of_mem member, marked⟩
  · exact fun _ => decide_eq_true (List.ne_nil_of_mem listed)

theorem applyColumnPolicy_hasKey {catalog : Catalog} {binding : EntityBinding} {built : EdmEntity}
    (resolved : buildEntity catalog binding = .ok built) :
    (applyColumnPolicy built binding).hasKey = true ↔ ∃ prop ∈ (applyColumnPolicy built binding).properties, prop.isKey = true := by
  unfold applyColumnPolicy
  split
  next => exact buildEntity_hasKey resolved
  next => exact List.any_eq_true

/-- A catalog whose tables have one column. -/
def bigintColumn : Catalog where
  columns _ := .ok [{ columnName := "a".toList, dataType := "BIGINT".toList }]
  primaryKeys _ := .ok []

def bigintEntity : EdmEntity where
  name := "people".toList
  table := "t".toList
  properties := [{ name := "a".toList, edmType := .int64, isKey := true, duckdbType := "BIGINT".toList }]
  hasKey := true

end DuckdbOdata.Entities
