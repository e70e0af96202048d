import Mathlib.Data.List.Nodup
import DuckdbOdata.Proofs.PayloadNames

/-! The member names of the rows under `$select`. A column that is listed twice is
selected twice, and its rows have two members of one name. -/

namespace DuckdbOdata.SelectedNames
open Text SqlTokens Responses JsonTexts Entities PayloadNames

/-- The columns of a table differ in more than case. -/
def Distinct (entity : EdmEntity) : Prop := (entity.properties.map fun prop => toLower prop.name).Nodup

/-- The properties that a `$select` text asks for; without an item, all. -/
def Selected (select : Str) (entity : EdmEntity) (prop : EdmProperty) : Prop :=
  prop ∈ entity.properties ∧ (parseSelect select = [] ∨ ∃ item ∈ parseSelect select, sameName prop.name item)

/-- No name twice, and the names of the selected properties. -/
def Unique (select : Str) (entity : EdmEntity) (names : List Str) : Prop :=
  names.Nodup ∧ ∀ name, name ∈ names ↔ ∃ prop, Selected select entity prop ∧ prop.name = name

/-- The query of a statement whose rows are served. -/
def servedQuery : Statement → Option ODataQuery
  | .collection query _ => some query
  | .count _ => none
  | .byKey query _ => some query

section
variable {entity : EdmEntity} {query : ODataQuery}

/-- A list is accepted if each item names a property. -/
private def Accepted (query : ODataQuery) (entity : EdmEntity) : Prop :=
  List.Forall₂ (fun item prop => prop ∈ entity.properties ∧ sameName prop.name item) query.select (selectedColumns query entity)

private theorem accepted {text : Str} (done : compileSelectList query entity = .ok text) (some : query.select ≠ []) :
    Accepted query entity := by
  obtain ⟨selected, found, -⟩ := FilterGrammar.bind_ok done
  have columns := selectedProperties_ok found
  rw [selectedProperties, if_neg some] at found
  rw [Accepted, ← columns]
  refine (mapM_ok found).imp fun item prop found => ?_
  unfold selectedProperty at found
  split at found
  next first same =>
    cases found
    exact ⟨List.mem_of_find?_eq_some same, by simpa using List.find?_some same⟩
  next => cases found

private theorem distinct_inj (distinct : Distinct entity) {first last : EdmProperty} (one : first ∈ entity.properties)
    (other : last ∈ entity.properties) (same : sameName first.name last.name) : first = last :=
  List.inj_on_of_nodup_map distinct one other same

private theorem lower_nodup (distinct : Distinct entity) {columns : List EdmProperty}
    (members : ∀ prop ∈ columns, prop ∈ entity.properties) :
    (columns.map (·.name)).Nodup ↔ (columns.map fun prop => toLower prop.name).Nodup := by
  have composed : (columns.map fun prop => toLower prop.name) = (columns.map (·.name)).map toLower := (List.map_map ..).symm
  rw [composed]
  constructor
  · intro unique
    refine unique.map_on fun first one last other same => ?_
    obtain ⟨prop, inside, rfl⟩ := List.mem_map.mp one
    obtain ⟨next, within, rfl⟩ := List.mem_map.mp other
    rw [distinct_inj distinct (members prop inside) (members next within) same]
  · exact List.Nodup.of_map toLower

private theorem accepted_lower (accepted : Accepted query entity) :
    ((selectedColumns query entity).map fun prop => toLower prop.name) = query.select.map toLower := by
  unfold Accepted at accepted
  generalize selectedColumns query entity = columns, query.select = items at accepted
  induction accepted with
  | nil => rfl
  | cons named _ ih => rw [List.map_cons, List.map_cons, ih, named.2]

private theorem accepted_mem (accepted : Accepted query entity) :
    (∀ prop ∈ selectedColumns query entity, ∃ item ∈ query.select, sameName prop.name item) ∧
      ∀ item ∈ query.select, ∃ prop ∈ selectedColumns query entity, prop ∈ entity.properties ∧ sameName prop.name item := by
  unfold Accepted at accepted
  generalize selectedColumns query entity = columns, query.select = items at accepted
  induction accepted with
  | nil => exact ⟨nofun, nofun⟩
  | cons named _ ih =>
    simp only [List.forall_mem_cons, List.exists_mem_cons_iff]
    exact ⟨⟨.inl named.2, fun prop member => .inr (ih.1 prop member)⟩, ⟨.inl named, fun item member => .inr (ih.2 item member)⟩⟩

private theorem selected_nodup {text : Str} (distinct : Distinct entity) (done : compileSelectList query entity = .ok text) :
    ((selectedColumns query entity).map (·.name)).Nodup ↔ (query.select.map toLower).Nodup := by
  rw [lower_nodup distinct fun prop member => selectedColumns_mem member]
  by_cases every : query.select = []
  · have all : selectedColumns query entity = entity.properties := if_pos every
    rw [all, every]
    exact iff_of_true distinct List.nodup_nil
  · rw [accepted_lower (accepted done every)]

private theorem selected_mem {text : Str} (distinct : Distinct entity) (done : compileSelectList query entity = .ok text)
    (prop : EdmProperty) : prop ∈ selectedColumns query entity ↔
      prop ∈ entity.properties ∧ (query.select = [] ∨ ∃ item ∈ query.select, sameName prop.name item) := by
  by_cases every : query.select = []
  · have all : selectedColumns query entity = entity.properties := if_pos every
    rw [all]
    exact ⟨fun member => ⟨member, .inl every⟩, And.left⟩
  · obtain ⟨asked, answered⟩ := accepted_mem (accepted done every)
    constructor
    · intro member
      exact ⟨selectedColumns_mem member, .inr (asked prop member)⟩
    · intro ⟨inside, items⟩
      obtain ⟨item, listed, same⟩ := items.resolve_left every
      obtain ⟨other, selected, within, named⟩ := answered item listed
      rw [distinct_inj distinct inside within (same.trans named.symm)]
      exact selected

private theorem served_projects {statement : Statement} {compiled : CompiledQuery} (served : servedQuery statement = some query)
    (done : statement.compile entity = .ok compiled) (live : List Str) :
    (∃ text, compileSelectList query entity = .ok text) ∧
      projected live (tablePath entity) (tokensOf (statement.lexemes entity)) =
        some (if selectedColumns query entity = [] then live else (selectedColumns query entity).map (·.name)) := by
  cases statement with
  | collection _ maxTop =>
    cases served
    obtain ⟨text, selected, -⟩ := FilterGrammar.bind_ok done
    exact ⟨⟨text, selected⟩, projected_collection entity query live maxTop⟩
  | count => cases served
  | byKey _ keys =>
    cases served
    obtain ⟨-, text, selected, -⟩ := compileByKey_ok done
    refine ⟨⟨text, selected⟩, projected_selected entity query live ?_⟩
    intro same
    cases same

end

section
variable {catalog : Catalog} {binding : EntityBinding} {built : EdmEntity} {columns : List ColumnRow} {statement : Statement}
  {query : ODataQuery} {compiled : CompiledQuery} {database : Database} {result : ResultSet}

private theorem served_names (types : LexedTypes catalog binding) (resolved : buildEntity catalog binding = .ok built)
    (served : servedQuery statement = some query) (done : statement.compile (applyColumnPolicy built binding) = .ok compiled)
    (projects : Projects (columns.map (·.columnName)) (tablePath built) database)
    (answered : database (.query compiled.sql) = .ok (.ok result)) :
    result.names = if selectedColumns query (applyColumnPolicy built binding) = [] then columns.map (·.columnName)
      else (selectedColumns query (applyColumnPolicy built binding)).map (·.name) := by
  obtain ⟨-, named⟩ := served_projects served done (columns.map (·.columnName))
  rw [policy_path] at named
  exact projects _ _ _ _ (Statement.lexes (visible_types types resolved) done).lex named answered

/-- Each row that is served for a `$select` text reads as an object whose members
have the names of the columns. The names are those of the selected properties,
each once, if and only if there is a property and no item is repeated in another
case or the same. -/
theorem members_unique {select : Str} (types : LexedTypes catalog binding) (resolved : buildEntity catalog binding = .ok built)
    (live : catalog.columns (scopeOf binding) = .ok columns) (distinct : Distinct (applyColumnPolicy built binding))
    (served : servedQuery statement = some { query with select := parseSelect select })
    (done : statement.compile (applyColumnPolicy built binding) = .ok compiled)
    (projects : Projects (columns.map (·.columnName)) (tablePath built) database)
    (answered : database (.query compiled.sql) = .ok (.ok result)) :
    ∀ row ∈ result.rows,
      ((∀ value ∈ row, Numeric value) → Json.read ('\x7b' :: (serializeMembers result.names row ++ ['\x7d'])) =
        some (.object (rowMembers result.names row))) ∧
      (Unique select (applyColumnPolicy built binding) ((rowMembers result.names row).map Prod.fst) ↔
        (applyColumnPolicy built binding).properties ≠ [] ∧ ((parseSelect select).map toLower).Nodup) := by
  intro row member
  refine ⟨fun numeric => (rowObject_closes numeric).read, ?_⟩
  obtain ⟨⟨text, list⟩, -⟩ := served_projects served done []
  have named := served_names types resolved served done projects answered
  rw [row_names member, Unique]
  by_cases none : (applyColumnPolicy built binding).properties = []
  · -- The wildcard brings the columns of the table, none of them selected.
    obtain ⟨first, others, -, live', -⟩ := buildEntity_live resolved
    rw [live] at live'
    cases live'
    refine iff_of_false ?_ (fun some => some.1 none)
    intro ⟨_, same⟩
    have empty : selectedColumns { query with select := parseSelect select } (applyColumnPolicy built binding) = [] :=
      List.eq_nil_iff_forall_not_mem.mpr fun prop inside => by simpa [none] using selectedColumns_mem inside
    rw [if_pos empty] at named
    obtain ⟨prop, ⟨inside, -⟩, -⟩ := (same first.columnName).mp (named ▸ List.mem_cons_self)
    rw [none] at inside
    cases inside
  · rw [if_neg fun empty => none (selectedColumns_none list empty)] at named
    rw [named, selected_nodup distinct list]
    refine ⟨fun unique => ⟨none, unique.1⟩, fun unique => ⟨unique.2, fun name => ?_⟩⟩
    rw [List.mem_map]
    exact exists_congr fun prop => and_congr_left fun _ => (selected_mem distinct list prop)

end

private def staff : List ColumnRow :=
  [{ columnName := "id".toList, dataType := "BIGINT".toList }, { columnName := "age".toList, dataType := "BIGINT".toList }]

private def people : EntityBinding where
  name := "people".toList
  table := "people".toList

private def person : EdmEntity where
  name := "people".toList
  table := "people".toList
  properties := [{ name := "id".toList, edmType := .int64, isKey := true, duckdbType := "BIGINT".toList },
    { name := "age".toList, edmType := .int64, duckdbType := "BIGINT".toList }]
  hasKey := true

private def hosted : Catalog where
  columns _ := .ok staff
  primaryKeys _ := .ok []

private theorem person_built : buildEntity hosted people = .ok person := rfl

private theorem person_visible : applyColumnPolicy person people = person := rfl

private theorem hosted_lexed : LexedTypes hosted people := by
  intro columns live row listed
  cases live
  rcases List.mem_cons.mp listed with rfl | listed
  · exact .bigint
  · rw [List.mem_singleton.mp listed]
    exact .bigint

/-- The collection of people under a `$select` text. -/
private def asked (select : Str) : ODataQuery where
  entitySet := "people".toList
  select := parseSelect select

private theorem person_compiles {select : Str} {columns : List EdmProperty}
    (selected : selectedProperties (asked select) person = .ok columns) :
    ∃ compiled, compileCollection (asked select) person 10000 = .ok compiled := by
  unfold compileCollection compileSelectList
  rw [selected]
  exact ⟨_, rfl⟩

/-- What the database answers to a statement about people. -/
private def shown (compiled : CompiledQuery) : ResultSet :=
  nullRow (((Sql.lex compiled.sql).bind (projected (staff.map (·.columnName)) (tablePath person))).getD [])

/-- A page of two columns, spelled in another way, with an empty item. -/
theorem members_unique_people :
    ∃ compiled, compileCollection (asked " AGE, ,id".toList) person 10000 = .ok compiled ∧
      ∃ row ∈ (shown compiled).rows, Unique " AGE, ,id".toList person ((rowMembers (shown compiled).names row).map Prod.fst) := by
  have selected : selectedProperties (asked " AGE, ,id".toList) person = .ok person.properties.reverse := by decide +kernel
  obtain ⟨compiled, done⟩ := person_compiles selected
  have served : servedQuery (.collection (asked " AGE, ,id".toList) 10000) =
      some { asked [] with select := parseSelect " AGE, ,id".toList } := rfl
  have statement : Statement.compile (applyColumnPolicy person people) (.collection (asked " AGE, ,id".toList) 10000) =
      .ok compiled := done
  have distinct : Distinct (applyColumnPolicy person people) := by
    rw [person_visible, Distinct]
    decide
  have database := nullRows_projects (staff.map (·.columnName)) (tablePath person)
  refine ⟨compiled, done, _, List.mem_cons_self, ?_⟩
  refine (members_unique hosted_lexed person_built rfl distinct served statement database rfl _ List.mem_cons_self).2.mpr ?_
  rw [person_visible]
  exact ⟨List.cons_ne_nil _ _, by decide +kernel⟩

/-- A repeated item is a repeated member. -/
theorem members_unique_repeated :
    ∃ compiled, compileCollection (asked "id,ID".toList) person 10000 = .ok compiled ∧
      ∃ row ∈ (shown compiled).rows, (rowMembers (shown compiled).names row).map Prod.fst = ["id".toList, "id".toList] := by
  have selected : selectedProperties (asked "id,ID".toList) person = .ok (person.properties.take 1 ++ person.properties.take 1) := by
    decide +kernel
  obtain ⟨compiled, done⟩ := person_compiles selected
  have statement : Statement.compile (applyColumnPolicy person people) (.collection (asked "id,ID".toList) 10000) =
      .ok compiled := done
  have named := served_names hosted_lexed person_built rfl statement (nullRows_projects (staff.map (·.columnName)) (tablePath person)) rfl
  refine ⟨compiled, done, _, List.mem_cons_self, ?_⟩
  rw [row_names List.mem_cons_self]
  refine named.trans ?_
  decide +kernel

end DuckdbOdata.SelectedNames
