import DuckdbOdata.Proofs.EntityNames
import DuckdbOdata.Proofs.Entities

/-! Whether what a command registers can be served. A table that is registered
exists, but a key may be one that no request finds. -/

namespace DuckdbOdata.RegistrationChecks
open Text FilterGrammar Registrations TableReferences EntityNames Entities

/-- The entity of the binding can be built. -/
def Builds (session : Session) (binding : EntityBinding) : Prop := ∃ entity, buildEntity session.toCatalog binding = .ok entity

/-- The registry after a command; a rejected one leaves it as it was. -/
def registryAfter (session : Session) (before : List EntityBinding) (command : Command) : List EntityBinding :=
  match command.execute session before with
  | .ok (after, _) => after
  | .error _ => before

/-- What was added or changed builds, and what built before still does. -/
structure Validated (session : Session) (before after : List EntityBinding) : Prop where
  written : ∀ (i : Nat) new, after[i]? = some new → before[i]? ≠ some new → Builds session new
  kept : ∀ (i : Nat) old, before[i]? = some old → Builds session old → ∃ new, after[i]? = some new ∧ Builds session new

def HasColumn (session : Session) (binding : EntityBinding) (name : Str) : Prop :=
  ∃ rows, session.columns (scopeOf binding) = .ok rows ∧ ∃ row ∈ rows, sameName row.columnName name

/-- A key configured by `odata_entity` is a column of the binding that gets it:
the one of that name, if there is one. It may also have had this key already. -/
def KeyChecked (session : Session) (before : List EntityBinding) (command : Command) : Prop :=
  ∀ reference key binding, command = .entity reference key → key ≠ [] → keyedBinding session reference key = .ok binding →
    match findBinding before binding.name with
    | some old => old.configuredKeys = [key] ∨ HasColumn session old key
    | none => HasColumn session binding key

/-- The views of the catalog agree: databases and schemas have names, every table
has a column, base tables are tables, and primary keys can be queried. -/
structure Coherent (session : Session) : Prop where
  named : ∀ rows, session.columnTables = .ok rows → ∀ row ∈ rows, row.databaseName ≠ [] ∧ row.schemaName ≠ []
  columns : ∀ rows, session.columnTables = .ok rows → ∀ row ∈ rows,
    ∃ first others, session.columns ⟨some row.databaseName, some row.schemaName, row.tableName⟩ = .ok (first :: others)
  base : ∀ tables, session.baseTables = .ok tables → ∃ rows, session.columnTables = .ok rows ∧ ∀ row ∈ tables, row ∈ rows
  keys : ∀ scope, ∃ constraints, session.primaryKeys scope = .ok constraints

variable {session : Session} {binding : EntityBinding}

private theorem findNamed_columns {rows : List ColumnRow} {name : Str} :
    (∃ prop, findNamed (rows.map propertyOf) name = some prop) ↔ ∃ row ∈ rows, sameName row.columnName name := by
  rw [← Option.isSome_iff_exists, findNamed, List.find?_isSome]
  simp [propertyOf]

private theorem configuredKey_column (binding : EntityBinding) {rows : List ColumnRow} {key : Str} :
    (∃ name, configuredKey binding (rows.map propertyOf) key = .ok name) ↔ ∃ row ∈ rows, sameName row.columnName key := by
  rw [← findNamed_columns, configuredKey]
  cases findNamed (rows.map propertyOf) key with
  | none => exact ⟨nofun, nofun⟩
  | some prop => exact ⟨fun _ => ⟨prop, rfl⟩, fun _ => ⟨prop.name, rfl⟩⟩

private theorem builds_keys {first : ColumnRow} {others : List ColumnRow}
    (live : session.columns (scopeOf binding) = .ok (first :: others)) :
    Builds session binding ↔ ∃ keys, resolveKeys session.toCatalog binding ((first :: others).map propertyOf) = .ok keys := by
  constructor
  · rintro ⟨entity, built⟩
    obtain ⟨first', others', keys, again, resolved, -⟩ := buildEntity_live built
    cases live.symm.trans again
    exact ⟨keys, resolved⟩
  · rintro ⟨keys, resolved⟩
    unfold Builds buildEntity
    rw [live]
    simp only [introspected, bind, Except.bind]
    rw [resolved]
    exact ⟨_, rfl⟩

private theorem builds_plain (coherent : Coherent session) {first : ColumnRow} {others : List ColumnRow}
    (live : session.columns (scopeOf binding) = .ok (first :: others)) (plain : binding.configuredKeys = []) :
    Builds session binding := by
  obtain ⟨constraints, answered⟩ := coherent.keys (scopeOf binding)
  rw [builds_keys live, resolveKeys, if_neg fun other => other plain, answered]
  simp only [introspected, bind, Except.bind]
  split <;> exact ⟨_, rfl⟩

/-- A binding with one key builds exactly if that is a column. -/
theorem builds_keyed {key : Str} (keyed : binding.configuredKeys = [key]) : Builds session binding ↔ HasColumn session binding key := by
  constructor
  · rintro ⟨entity, built⟩
    obtain ⟨first, others, keys, live, resolved, -⟩ := buildEntity_live built
    rw [resolveKeys, keyed, if_pos (List.cons_ne_nil _ _), List.mapM_cons] at resolved
    obtain ⟨name, found, -⟩ := bind_ok resolved
    exact ⟨_, live, (configuredKey_column binding).mp ⟨name, found⟩⟩
  · rintro ⟨rows, live, column⟩
    obtain ⟨name, found⟩ := (configuredKey_column binding).mpr column
    cases rows with
    | nil => exact absurd column (by simp)
    | cons first others =>
      rw [builds_keys live, resolveKeys, keyed, if_pos (List.cons_ne_nil _ _), List.mapM_cons, found]
      exact ⟨_, rfl⟩

private theorem place_live (binding : EntityBinding) (coherent : Coherent session) {rows : List TableRow} (listed : session.columnTables = .ok rows)
    (inside : placeOf binding ∈ rows) : ∃ first others, session.columns (scopeOf binding) = .ok (first :: others) := by
  have database : binding.catalog ≠ [] := (coherent.named rows listed _ inside).1
  have schema : binding.schema ≠ [] := (coherent.named rows listed _ inside).2
  have live := coherent.columns rows listed _ inside
  have scope : scopeOf binding = ⟨some binding.catalog, some binding.schema, binding.table⟩ := by
    rw [scopeOf, if_neg database, if_neg schema]
  rw [scope]
  exact live

private theorem refers_live (coherent : Coherent session) {reference : Str} {resolved : EntityBinding}
    (refers : Refers session reference resolved) :
    ∃ first others, session.columns (scopeOf resolved) = .ok (first :: others) := by
  obtain ⟨-, ⟨rows, listed, inside, -⟩, -⟩ := refers.named
  exact place_live _ coherent listed inside

private theorem exposed_builds (coherent : Coherent session) {reference : Str} {columns : List Str}
    (done : exposedBinding session reference columns = .ok binding) : Builds session binding := by
  have plain := (exposedBinding_ok done).2
  obtain ⟨parsed, first, done⟩ := bind_ok done
  obtain ⟨resolved, second, done⟩ := bind_ok done
  obtain ⟨-, -, same⟩ := bind_ok done
  cases same
  obtain ⟨_, _, live⟩ := refers_live coherent ⟨parsed, first, second⟩
  exact builds_plain coherent live plain

private theorem schema_builds (coherent : Coherent session) {reference : Str} {registered : List EntityBinding}
    (done : schemaBindings session reference = .ok registered) (member : binding ∈ registered) : Builds session binding := by
  obtain ⟨tables, row, listed, inside, rfl⟩ := schemaBindings_row done member
  obtain ⟨rows, found, all⟩ := coherent.base tables listed
  obtain ⟨_, _, live⟩ := place_live (schemaBinding session row.schemaName row) coherent found (all row inside)
  exact builds_plain coherent live rfl

variable {before after : List EntityBinding}

private theorem validated_writes (longer : before.length ≤ after.length)
    (writes : ∀ (i : Nat) new, after[i]? = some new → before[i]? = some new ∨ Builds session new) :
    Validated session before after := by
  refine ⟨fun i new read changed => (writes i new read).resolve_left changed, fun i old here builds => ?_⟩
  have inside : i < after.length := (List.getElem?_eq_some_iff.mp here).1.trans_le longer
  refine ⟨after[i], List.getElem?_eq_getElem inside, ?_⟩
  rcases writes i after[i] (List.getElem?_eq_getElem inside) with same | built
  · cases here.symm.trans same
    exact builds
  · exact built

private theorem validated_expose (builds : Builds session binding) : Validated session before (storeExposed before binding) := by
  refine validated_writes (Upsert.length_le _ _ _ _) fun i new read => ?_
  rcases Upsert.getElem?_mem read with same | ⟨-, -, -, rfl⟩ | ⟨-, rfl⟩
  · exact .inl same
  · exact .inr builds
  · exact .inr builds

private theorem validated_schema {registered : List EntityBinding} (builds : ∀ binding ∈ registered, Builds session binding) :
    Validated session before (registered.foldl storeSchema before) := by
  have written : ∀ registered before : List EntityBinding, (∀ binding ∈ registered, Builds session binding) →
      before.length ≤ (registered.foldl storeSchema before).length ∧
        ∀ (i : Nat) new, (registered.foldl storeSchema before)[i]? = some new → before[i]? = some new ∨ Builds session new := by
    intro registered
    induction registered with
    | nil => exact fun before _ => ⟨Nat.le_refl _, fun i new read => .inl read⟩
    | cons first others ih =>
      intro before builds
      obtain ⟨here, later⟩ := List.forall_mem_cons.mp builds
      obtain ⟨longer, rest⟩ := ih (storeSchema before first) later
      refine ⟨(Upsert.length_le _ _ _ _).trans longer, fun i new read => ?_⟩
      rcases rest i new read with same | built
      · rcases Upsert.getElem?_mem same with same | ⟨-, -, -, rfl⟩ | ⟨-, rfl⟩
        · exact .inl same
        · exact .inr here
        · exact .inr here
      · exact .inr built
  obtain ⟨longer, writes⟩ := written registered before builds
  exact validated_writes longer writes

private theorem validated_keyed {key : Str} (keyed : binding.configuredKeys = [key]) :
    Validated session before (storeKeyed before binding) ↔
      match findBinding before binding.name with
      | some old => old.configuredKeys = [key] ∨ HasColumn session old key
      | none => HasColumn session binding key := by
  constructor
  · intro valid
    rcases Upsert.getElem?_find (fun old : EntityBinding => sameName old.name binding.name)
      (fun old => { old with configuredKeys := binding.configuredKeys }) binding before with ⟨i, old, found, here, written⟩ | ⟨none, written⟩
    · rw [findBinding, found]
      by_cases same : old.configuredKeys = [key]
      · exact .inl same
      · have column := @builds_keyed session { old with configuredKeys := binding.configuredKeys } _ keyed
        refine .inr (column.mp (valid.written i _ written fun unchanged => same ?_))
        rw [here] at unchanged
        exact (congrArg EntityBinding.configuredKeys (Option.some.inj unchanged)).trans keyed
    · rw [findBinding, none]
      refine (builds_keyed keyed).mp (valid.written before.length _ written ?_)
      rw [List.getElem?_eq_none (Nat.le_refl _)]
      exact nofun
  · intro checked
    refine validated_writes (Upsert.length_le _ _ _ _) fun i new read => ?_
    rcases Upsert.getElem?_mem read with same | ⟨old, found, here, rfl⟩ | ⟨none, rfl⟩
    · exact .inl same
    · rw [findBinding, found] at checked
      rcases checked with same | column
      · refine .inl (here.trans (congrArg some ?_))
        rw [keyed, ← same]
      · exact .inr ((@builds_keyed session { old with configuredKeys := binding.configuredKeys } _ keyed).mpr column)
    · rw [findBinding, none] at checked
      exact .inr ((builds_keyed keyed).mpr checked)

/-- A command leaves a registry whose new bindings build, and whose old ones
still do, exactly if the key that it configures is checked. -/
theorem validated_iff (coherent : Coherent session) (before : List EntityBinding) (command : Command) :
    Validated session before (registryAfter session before command) ↔ KeyChecked session before command := by
  have unchanged : Validated session before before := validated_writes (Nat.le_refl _) fun i new read => .inl read
  cases command with
  | expose reference columns =>
    refine ⟨fun _ => nofun, fun _ => ?_⟩
    unfold registryAfter
    split
    next after rows done =>
      obtain ⟨registered, given, rfl⟩ := calls_stores (⟨rows, done⟩ : Calls _ (session, .expose reference columns) _)
      obtain ⟨binding, exposed, same⟩ := bind_ok given
      cases same
      exact validated_expose (exposed_builds coherent exposed)
    next => exact unchanged
  | exposeSchema reference =>
    refine ⟨fun _ => nofun, fun _ => ?_⟩
    unfold registryAfter
    split
    next after rows done =>
      obtain ⟨registered, given, rfl⟩ := calls_stores (⟨rows, done⟩ : Calls _ (session, .exposeSchema reference) _)
      exact validated_schema fun binding member => schema_builds coherent given member
    next => exact unchanged
  | entity reference key =>
    by_cases refused : reference = [] ∨ key = []
    · have stays : registryAfter session before (.entity reference key) = before := by
        rw [registryAfter, Command.execute, entityExecute, if_pos refused]
      rw [stays]
      refine ⟨fun _ => ?_, fun _ => unchanged⟩
      rintro _ _ binding ⟨⟩ given done
      obtain rfl := refused.resolve_right given
      obtain ⟨parsed, first, -⟩ := bind_ok done
      cases first
    cases done : keyedBinding session reference key with
    | error e =>
      have stays : registryAfter session before (.entity reference key) = before := by
        unfold registryAfter
        split
        next after rows executed =>
          obtain ⟨_, given, -⟩ := calls_stores (⟨rows, executed⟩ : Calls _ (session, .entity reference key) _)
          rw [registrations, done] at given
          cases given
        next => rfl
      rw [stays]
      refine ⟨fun _ => ?_, fun _ => unchanged⟩
      rintro _ _ binding ⟨⟩ - other
      cases done.symm.trans other
    | ok binding =>
      have stored : registryAfter session before (.entity reference key) = storeKeyed before binding := by
        rw [registryAfter, Command.execute, entityExecute, if_neg refused, done]
        rfl
      rw [stored, validated_keyed (keyedBinding_ok done).2]
      constructor
      · rintro found _ _ other ⟨⟩ - again
        cases done.symm.trans again
        exact found
      · exact fun checked => checked reference key binding rfl (not_or.mp refused).2 done

private theorem people_coherent : Coherent people where
  named := by
    rintro rows ⟨⟩ row member
    cases List.mem_singleton.mp member
    exact ⟨by decide, by decide⟩
  columns := by
    rintro rows ⟨⟩ row -
    exact ⟨_, _, rfl⟩
  base := by
    rintro tables ⟨⟩
    exact ⟨_, rfl, fun _ member => member⟩
  keys := fun _ => ⟨_, rfl⟩

theorem validated_iff_id :
    Validated people [boundPeople [] []] (registryAfter people [boundPeople [] []] (.entity "people".toList "ID".toList)) ↔
      KeyChecked people [boundPeople [] []] (.entity "people".toList "ID".toList) :=
  validated_iff people_coherent _ _

/-- `odata_entity` accepts a key that is no column, and the binding no longer builds. -/
theorem validated_unknown : Builds people (boundPeople [] []) ∧
    Calls [boundPeople [] []] (people, .entity "people".toList "nope".toList) [boundPeople ["nope"] []] ∧
    ¬ Validated people [boundPeople [] []] (registryAfter people [boundPeople [] []] (.entity "people".toList "nope".toList)) := by
  refine ⟨⟨_, rfl⟩, ⟨_, rfl⟩, fun valid => ?_⟩
  have builds : Builds people (boundPeople ["nope"] []) := valid.written 0 _ rfl (by decide)
  obtain ⟨rows, live, row, member, named⟩ := (builds_keyed rfl).mp builds
  cases live
  cases List.mem_singleton.mp member
  exact absurd named (by decide)

end DuckdbOdata.RegistrationChecks
