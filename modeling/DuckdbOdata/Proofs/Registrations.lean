import DuckdbOdata.Proofs.FilterGrammar
import DuckdbOdata.Server.ODataServer
import DuckdbOdata.Server.Registry

/-! What a command writes to the registry: the bindings that its arguments give,
stored one after the other. -/

namespace DuckdbOdata.Registrations
open Text FilterGrammar

/-- The table of a binding, as names are compared. -/
def tableOf (binding : EntityBinding) : TableRow where
  databaseName := toLower binding.catalog
  schemaName := toLower binding.schema
  tableName := toLower binding.table

/-- The bindings that a call registers. -/
def registrations : Session × Command → Except Exn (List EntityBinding)
  | (session, .expose arg columns) => do
    let binding ← exposedBinding session arg columns
    .ok [binding]
  | (session, .exposeSchema arg) => schemaBindings session arg
  | (session, .entity arg key) => do
    let binding ← keyedBinding session arg key
    .ok [binding]

/-- How a command stores one of them. -/
def store : Command → List EntityBinding → EntityBinding → List EntityBinding
  | .expose _ _ => storeExposed
  | .exposeSchema _ => storeSchema
  | .entity _ _ => storeKeyed

theorem invalidInput_ok {command : String} {result : Except Exn α} {value : α}
    (done : invalidInput command result = .ok value) : result = .ok value := by
  unfold invalidInput at done
  split at done
  next => cases done
  next => exact done

theorem calls_stores {before after : List EntityBinding} {call : Session × Command} (called : Calls before call after) :
    ∃ registered, registrations call = .ok registered ∧ after = registered.foldl (store call.2) before := by
  obtain ⟨session, command⟩ := call
  obtain ⟨rows, done⟩ := called
  cases command with
  | expose arg columns =>
    simp only [Command.execute, exposeExecute] at done
    split at done
    next => cases done
    next =>
      obtain ⟨binding, parsed, same⟩ := bind_ok done
      cases same
      exact ⟨[binding], by rw [registrations, invalidInput_ok parsed]; rfl, rfl⟩
  | exposeSchema arg =>
    simp only [Command.execute, exposeSchemaExecute] at done
    split at done
    next => cases done
    next =>
      obtain ⟨registered, listed, same⟩ := bind_ok done
      cases same
      exact ⟨registered, listed, rfl⟩
  | entity arg key =>
    simp only [Command.execute, entityExecute] at done
    split at done
    next => cases done
    next =>
      obtain ⟨binding, parsed, same⟩ := bind_ok done
      cases same
      exact ⟨[binding], by rw [registrations, invalidInput_ok parsed]; rfl, rfl⟩

theorem parseQualifiedBinding_plain {arg : Str} {binding : EntityBinding} (parsed : parseQualifiedBinding arg = .ok binding) :
    binding.configuredKeys = [] ∧ binding.configuredColumns = [] := by
  unfold parseQualifiedBinding at parsed
  simp only at parsed
  split at parsed
  next => cases parsed
  split at parsed
  next => cases parsed
  split at parsed
  next => cases parsed; exact ⟨rfl, rfl⟩
  next => cases parsed; exact ⟨rfl, rfl⟩
  next => cases parsed; exact ⟨rfl, rfl⟩
  next => cases parsed

/-- Resolving sets the catalog and the schema only. -/
theorem resolveBindingTable_ok {session : Session} {binding resolved : EntityBinding}
    (done : resolveBindingTable session binding = .ok resolved) : ∃ catalog schema, resolved = { binding with catalog, schema } := by
  obtain ⟨found, answered, done⟩ := bind_ok done
  split at done
  next =>
    split at done
    next => cases done
    next => cases done; exact ⟨_, _, rfl⟩
    next => cases done
  next =>
    split at done
    next => cases done
    next =>
      split at done
      next => cases done
      next => cases done; exact ⟨_, _, rfl⟩

theorem exposedBinding_ok {session : Session} {arg : Str} {columns : List Str} {binding : EntityBinding}
    (done : exposedBinding session arg columns = .ok binding) :
    binding.configuredColumns = columns ∧ binding.configuredKeys = [] := by
  obtain ⟨parsed, first, done⟩ := bind_ok done
  obtain ⟨resolved, second, done⟩ := bind_ok done
  obtain ⟨-, -, same⟩ := bind_ok done
  obtain ⟨catalog, schema, rfl⟩ := resolveBindingTable_ok second
  cases same
  exact ⟨rfl, (parseQualifiedBinding_plain first).1⟩

theorem keyedBinding_ok {session : Session} {arg key : Str} {binding : EntityBinding}
    (done : keyedBinding session arg key = .ok binding) :
    binding.configuredColumns = [] ∧ binding.configuredKeys = [key] := by
  obtain ⟨parsed, first, done⟩ := bind_ok done
  obtain ⟨resolved, second, same⟩ := bind_ok done
  obtain ⟨catalog, schema, rfl⟩ := resolveBindingTable_ok second
  cases same
  exact ⟨(parseQualifiedBinding_plain first).2, rfl⟩

/-- The bindings of a schema have their tables behind one common prefix, and
neither keys nor an allow-list. -/
structure Uniform (catalog schema front : Str) (binding : EntityBinding) : Prop where
  catalog : binding.catalog = catalog
  schema : binding.schema = schema
  name : binding.name = front ++ binding.table
  keys : binding.configuredKeys = []
  columns : binding.configuredColumns = []

theorem schemaBindings_uniform {session : Session} {arg : Str} {registered : List EntityBinding}
    (done : schemaBindings session arg = .ok registered) :
    ∃ catalog schema front, ∀ binding ∈ registered, Uniform catalog schema front binding := by
  obtain ⟨⟨catalog, schema⟩, parsed, done⟩ := bind_ok done
  dsimp only at done
  split at done
  next => cases done
  next rows listed =>
    cases done
    have same : ∃ database, ∀ row ∈ rows, row.databaseName = database := by
      obtain ⟨every, -, listed⟩ := bind_ok listed
      obtain ⟨database, -, same⟩ := bind_ok listed
      cases same
      exact ⟨database, fun row member => (of_decide_eq_true (List.mem_filter.mp member).2).2⟩
    obtain ⟨database, same⟩ := same
    refine ⟨database, schema, schemaEntityName { schema, catalog := database } (scalarQueryResult session.currentSchema)
      (scalarQueryResult session.currentCatalog), fun binding member => ?_⟩
    obtain ⟨row, inside, rfl⟩ := List.mem_map.mp member
    have database := same row (List.mem_filter.mp inside).1
    refine ⟨database, rfl, ?_, rfl, rfl⟩
    simp only [schemaBinding, schemaEntityName, database]
    split
    next => simp
    split
    next => rfl
    next => simp

/-- Within a schema, a name stands for one table. -/
theorem Uniform.named {catalog schema front : Str} {first last : EntityBinding} (one : Uniform catalog schema front first)
    (other : Uniform catalog schema front last) : sameName first.name last.name ↔ tableOf first = tableOf last := by
  simp [sameName, tableOf, one.catalog, one.schema, one.name, other.catalog, other.schema, other.name, toLower]

/-- No two bindings share a name. -/
def Distinct (bindings : List EntityBinding) : Prop := (bindings.map fun binding => toLower binding.name).Nodup

theorem findBinding_distinct {bindings : List EntityBinding} (distinct : Distinct bindings) {binding : EntityBinding}
    (member : binding ∈ bindings) : findBinding bindings binding.name = some binding := by
  induction bindings with
  | nil => exact absurd member List.not_mem_nil
  | cons first others ih =>
    obtain ⟨apart, distinct⟩ := List.nodup_cons.mp distinct
    unfold findBinding
    rcases List.mem_cons.mp member with rfl | member
    · rw [List.find?_cons_of_pos]
      exact decide_eq_true rfl
    · rw [List.find?_cons_of_neg]
      · exact ih distinct member
      · rw [decide_eq_true_eq]
        exact fun same => apart (List.mem_map.mpr ⟨binding, member, same.symm⟩)

variable {bindings : List EntityBinding} {binding old : EntityBinding}

theorem storeExposed_kept (member : old ∈ bindings) :
    old ∈ storeExposed bindings binding ∨ sameName old.name binding.name ∧ binding ∈ storeExposed bindings binding :=
  Upsert.kept member

theorem storeKeyed_kept (member : old ∈ bindings) :
    old ∈ storeKeyed bindings binding ∨ sameName old.name binding.name ∧
      { old with configuredKeys := binding.configuredKeys } ∈ storeKeyed bindings binding :=
  Upsert.kept member

theorem storeExposed_written (bindings : List EntityBinding) (binding : EntityBinding) :
    binding ∈ storeExposed bindings binding := by
  rcases Upsert.written (fun old => sameName old.name binding.name) (fun _ => binding) binding bindings with
    ⟨_, -, -, written⟩ | ⟨-, written⟩
  · exact written
  · exact written

theorem storeExposed_mem (member : old ∈ storeExposed bindings binding) : old ∈ bindings ∨ old = binding := by
  rcases Upsert.mem member with kept | ⟨_, -, -, same⟩ | ⟨same, -⟩
  · exact .inl kept
  · exact .inr same
  · exact .inr same

theorem storeExposed_distinct {bindings : List EntityBinding} (binding : EntityBinding) (distinct : Distinct bindings) :
    Distinct (storeExposed bindings binding) :=
  Upsert.distinct (fun _ => Iff.rfl) (fun _ _ => rfl) distinct

theorem storeKeyed_distinct {bindings : List EntityBinding} (binding : EntityBinding) (distinct : Distinct bindings) :
    Distinct (storeKeyed bindings binding) :=
  Upsert.distinct (fun _ => Iff.rfl) (fun _ same => same) distinct

/-- If names and tables agree, the schema command replaces by name too. -/
theorem storeSchema_named {bindings : List EntityBinding} {binding : EntityBinding}
    (agree : ∀ old ∈ bindings, sameName old.name binding.name → tableOf old = tableOf binding) :
    storeSchema bindings binding = storeExposed bindings binding := by
  refine Upsert.congr fun old member => ⟨And.left, fun same => ⟨same, ?_⟩⟩
  have table := agree old member same
  exact ⟨congrArg TableRow.schemaName table, congrArg TableRow.databaseName table⟩

theorem calls_functional (before : List EntityBinding) (call : Session × Command) (first last : List EntityBinding)
    (one : Calls before call first) (other : Calls before call last) : first = last := by
  obtain ⟨rows, one⟩ := one
  obtain ⟨rows', other⟩ := other
  cases one.symm.trans other
  rfl

/-- A session that sees these tables, each with one column. -/
def sessionWith (tables : List TableRow) : Session where
  columns _ := .ok [{ columnName := "id".toList, dataType := "INTEGER".toList }]
  primaryKeys _ := .ok []
  columnTables := .ok tables
  baseTables := .ok tables
  currentSchema := .ok "main".toList
  currentCatalog := .ok "db".toList

def peopleTable : TableRow := ⟨"db".toList, "main".toList, "people".toList⟩

def people : Session := sessionWith [peopleTable]

def boundPeople (keys columns : List String) : EntityBinding where
  name := "people".toList
  table := "people".toList
  schema := "main".toList
  catalog := "db".toList
  configuredKeys := keys.map String.toList
  configuredColumns := columns.map String.toList

end DuckdbOdata.Registrations
