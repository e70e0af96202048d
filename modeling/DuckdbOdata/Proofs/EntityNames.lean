import DuckdbOdata.Proofs.TableReferences

/-! The public name of a table. A schema's tables are named by where they are,
a single table by how it was written; both agree if it was written with the
qualifiers that it needs. -/

namespace DuckdbOdata.EntityNames
open Text FilterGrammar TableReferences

/-- A table, or a schema that stands for each of its tables. -/
inductive Reference
  | table (reference : Str)
  | schema (reference : Str)

/-- The reference gives this name to the table at `place`. -/
def Names (session : Session) (place : TableRow) (name : Str) : Reference → Prop
  | .table reference => ∃ resolved, Refers session reference resolved ∧ placeOf resolved = place ∧ resolved.name = name
  | .schema reference => ∃ registered, schemaBindings session reference = .ok registered ∧
      ∃ binding ∈ registered, placeOf binding = place ∧ binding.name = name

/-- What the current scope does not say about a table. -/
def scopedParts (session : Session) (place : TableRow) : List Str :=
  if place.databaseName ≠ scalarQueryResult session.currentCatalog then path place
  else if place.schemaName ≠ scalarQueryResult session.currentSchema then [place.schemaName, place.tableName]
  else [place.tableName]

/-- The table's name in the current catalog and schema, `schema_table` in the
current catalog, and `catalog_schema_table` elsewhere. -/
def scopedName (session : Session) (place : TableRow) : Str := "_".toList.intercalate (scopedParts session place)

/-- Both references give the table its one name. -/
def OneName (session : Session) (place : TableRow) (first second : Str) : Prop :=
  first = second ∧ first = scopedName session place

/-- The table is written with exactly the qualifiers that it needs. -/
def Spelled (session : Session) (place : TableRow) : Reference → Prop
  | .table reference => partsOf reference = scopedParts session place
  | .schema _ => True

/-- No database of the catalog has an empty name. -/
def NamedDatabases (session : Session) : Prop :=
  ∀ rows, session.baseTables = .ok rows → ∀ row ∈ rows, row.databaseName ≠ []

variable {session : Session} {place : TableRow} {name : Str}

theorem scopedParts_path (session : Session) (place : TableRow) : scopedParts session place <:+ path place :=
  (path_ends place _ _ rfl).1

theorem scopedParts_ne_nil (session : Session) (place : TableRow) : scopedParts session place ≠ [] :=
  (path_ends place _ _ rfl).2

private theorem table_scoped {reference : Str} (names : Names session place name (.table reference)) :
    name = scopedName session place ↔ partsOf reference = scopedParts session place := by
  obtain ⟨resolved, refers, rfl, rfl⟩ := names
  obtain ⟨formed, ⟨rows, -, -, ends, -⟩, named⟩ := refers.named
  rw [named, scopedName]
  refine ⟨fun same => ?_, fun same => by rw [same]⟩
  exact intercalate_suffix (by decide) ends (scopedParts_path session _) formed.listed (scopedParts_ne_nil session _)
    (congrArg List.length same)

/-- The rows of a schema's tables. -/
theorem schemaBindings_row {reference : Str} {registered : List EntityBinding} {binding : EntityBinding}
    (done : schemaBindings session reference = .ok registered) (member : binding ∈ registered) :
    ∃ rows row, session.baseTables = .ok rows ∧ row ∈ rows ∧ binding = schemaBinding session row.schemaName row := by
  obtain ⟨⟨catalog, schema⟩, parsed, done⟩ := bind_ok done
  dsimp only at done
  split at done
  next => cases done
  next tables listed =>
    cases done
    obtain ⟨rows, found, listed⟩ := bind_ok listed
    obtain ⟨database, -, same⟩ := bind_ok listed
    cases same
    obtain ⟨row, inside, rfl⟩ := List.mem_map.mp member
    obtain ⟨inside, here⟩ := List.mem_filter.mp (List.mem_filter.mp inside).1
    refine ⟨rows, row, found, inside, ?_⟩
    rw [(of_decide_eq_true here).1]

private theorem schema_scoped {reference : Str} (named : NamedDatabases session) (names : Names session place name (.schema reference)) :
    name = scopedName session place := by
  obtain ⟨registered, done, binding, member, rfl, rfl⟩ := names
  obtain ⟨rows, row, listed, inside, rfl⟩ := schemaBindings_row done member
  have database := named rows listed row inside
  simp only [schemaBinding, schemaEntityName, scopedName, scopedParts, placeOf, path]
  by_cases here : row.databaseName = scalarQueryResult session.currentCatalog
  · by_cases current : row.schemaName = scalarQueryResult session.currentSchema
    · simp [here, current]
    · simp [here, current]
  · simp [here, database]

/-- Two references to one table give it its one name exactly if both are written
with the qualifiers that it needs. -/
theorem oneName_iff (named : NamedDatabases session) {first second : Reference} {one other : Str}
    (names : Names session place one first) (again : Names session place other second) :
    OneName session place one other ↔ Spelled session place first ∧ Spelled session place second := by
  have suited : ∀ {reference : Reference} {name : Str}, Names session place name reference →
      (name = scopedName session place ↔ Spelled session place reference) := by
    intro reference name names
    cases reference with
    | table reference => exact table_scoped names
    | schema reference => exact ⟨fun _ => trivial, fun _ => schema_scoped named names⟩
  rw [← suited names, ← suited again]
  constructor
  · rintro ⟨same, right⟩
    exact ⟨right, same ▸ right⟩
  · rintro ⟨right, left⟩
    exact ⟨right.trans left.symm, right⟩

private def office : Session where
  columns _ := .ok []
  primaryKeys _ := .ok []
  columnTables := .ok [⟨"db".toList, "main".toList, "people".toList⟩, ⟨"db".toList, "s1".toList, "items".toList⟩]
  baseTables := .ok [⟨"db".toList, "main".toList, "people".toList⟩, ⟨"db".toList, "s1".toList, "items".toList⟩]
  currentSchema := .ok "main".toList
  currentCatalog := .ok "db".toList

private def peoplePlace : TableRow := ⟨"db".toList, "main".toList, "people".toList⟩

private def itemsPlace : TableRow := ⟨"db".toList, "s1".toList, "items".toList⟩

private theorem office_named : NamedDatabases office := by
  rintro rows ⟨⟩
  exact every (by decide)

theorem oneName_iff_items : OneName office itemsPlace "s1_items".toList "s1_items".toList ↔
    Spelled office itemsPlace (.table "s1.items".toList) ∧ Spelled office itemsPlace (.schema "s1".toList) :=
  oneName_iff office_named ⟨_, ⟨_, rfl, rfl⟩, rfl, rfl⟩ ⟨_, rfl, _, List.mem_cons_self, rfl, rfl⟩

/-- The table `people` of the current schema `main` is named `main_people` or
`people`. -/
theorem oneName_main : Names office peoplePlace "main_people".toList (.table "main.people".toList) ∧
    Names office peoplePlace "people".toList (.schema "main".toList) ∧
    ¬ OneName office peoplePlace "main_people".toList "people".toList :=
  ⟨⟨_, ⟨_, rfl, rfl⟩, rfl, rfl⟩, ⟨_, rfl, _, List.mem_cons_self, rfl, rfl⟩, fun same => absurd same.1 (by decide)⟩

end DuckdbOdata.EntityNames
