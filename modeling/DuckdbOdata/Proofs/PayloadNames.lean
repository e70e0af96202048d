import DuckdbOdata.Proofs.Entities
import DuckdbOdata.Proofs.JsonTexts
import DuckdbOdata.Proofs.KeyReferences
import DuckdbOdata.Proofs.Responses

/-! The member names of a collection's rows against the properties that the
metadata declares. The select list names every visible column, the document only
those whose type has an EDM counterpart. -/

namespace DuckdbOdata.PayloadNames
open Text FilterGrammar SqlTokens HandlerCalls Routes Responses Entities JsonTexts Xml MetadataDocument KeyReferences

/-- A list of column names, and the tokens after it. -/
def listedNames : List Sql.Token → Option (List Str × List Sql.Token)
  | .ident name :: .punct c :: rest =>
    if c = ',' then (listedNames rest).map fun (names, after) => (name :: names, after) else none
  | .ident name :: rest => some ([name], rest)
  | _ => none

/-- The tokens go on with the table at `path`. -/
def readsFrom (path : List Str) (tokens : List Sql.Token) : Bool :=
  let source := (Lexeme.source "FROM".toList path).tokens
  source.isPrefixOf tokens && (tokens.drop source.length).head? ≠ some (.punct '.')

/-- The column names of a `SELECT` from the table at `path`; a wildcard stands
for the columns that the table has. -/
def projected (live path : List Str) : List Sql.Token → Option (List Str)
  | .word word :: .op symbol :: rest =>
    if word = "SELECT".toList ∧ symbol = ['*'] ∧ readsFrom path rest then some live else none
  | .word word :: rest =>
    match listedNames rest with
    | some (names, after) => if word = "SELECT".toList ∧ readsFrom path after then some names else none
    | none => none
  | _ => none

/-- The database names the columns of a result as the statement does. -/
def Projects (live path : List Str) (database : Database) : Prop :=
  ∀ sql tokens names result, Sql.lex sql = some tokens → projected live path tokens = some names →
    database (.query sql) = .ok (.ok result) → result.names = names

private theorem listedNames_columns (columns : List EdmProperty) (some : columns ≠ []) (word : Str) (rest : List Sql.Token) :
    listedNames ([.punct ','].intercalate (columns.map fun prop => [.ident prop.name]) ++ .word word :: rest) =
      .some (columns.map (·.name), .word word :: rest) := by
  induction columns with
  | nil => exact absurd rfl some
  | cons prop others ih =>
    cases others with
    | nil => rfl
    | cons next others =>
      have later := ih (List.cons_ne_nil _ _)
      simp only [List.map_cons, List.intercalate_cons_cons, List.cons_append, List.nil_append] at later ⊢
      rw [listedNames, if_pos rfl, later]
      rfl

private theorem clauses_head (query : ODataQuery) (entity : EdmEntity) (top skip : Int) :
    (tokensOf (whereLexemes query entity ++ (orderLexemes query ++ limitLexemes top skip))).head? ≠ some (.punct '.') := by
  have word : ∀ (name : Str) (lexemes : List Lexeme), (tokensOf (.keyword name :: lexemes)).head? ≠ some (.punct '.') := by
    intro name lexemes same
    cases same
  unfold whereLexemes orderLexemes limitLexemes
  cases query.filter with
  | some filter => exact word _ _
  | none =>
    dsimp only
    by_cases orders : query.orderBy = []
    · rw [if_pos orders]
      by_cases limits : 0 ≤ top
      · rw [if_pos limits]
        exact word _ _
      · rw [if_neg limits]
        by_cases skips : 0 ≤ skip
        · rw [if_pos skips]
          exact word _ _
        · rw [if_neg skips]
          intro same
          cases same
    · rw [if_neg orders]
      exact word _ _

private theorem readsFrom_table (path : List Str) {rest : List Sql.Token} (clause : rest.head? ≠ some (.punct '.')) :
    readsFrom path ((Lexeme.source "FROM".toList path).tokens ++ rest) = true := by
  unfold readsFrom
  simp only [Bool.and_eq_true, List.isPrefixOf_iff_prefix, decide_eq_true_eq]
  exact ⟨List.prefix_append _ _, by rwa [List.drop_left]⟩

private theorem projected_columns {columns : List EdmProperty} (some : columns ≠ []) (live path : List Str) {rest : List Sql.Token}
    (reads : readsFrom path ((Lexeme.source "FROM".toList path).tokens ++ rest) = true) :
    projected live path (.word "SELECT".toList ::
        (tokensOf (columnLexemes columns) ++ ((Lexeme.source "FROM".toList path).tokens ++ rest))) =
      .some (columns.map (·.name)) := by
  have separator : tokensOf [.punctuation ','] = [.punct ','] := rfl
  have tokens : tokensOf (columnLexemes columns) = [.punct ','].intercalate (columns.map fun prop => [.ident prop.name]) := by
    rw [columnLexemes, tokensOf_intercalate, separator, List.map_map]
    rfl
  have listed := listedNames_columns columns some "FROM".toList
    ([.punct '.'].intercalate (path.map fun name => [.ident name]) ++ rest)
  have first : ∃ name more, tokensOf (columnLexemes columns) ++ ((Lexeme.source "FROM".toList path).tokens ++ rest) =
      .ident name :: more := by
    rw [tokens]
    cases columns with
    | nil => exact absurd rfl some
    | cons prop others =>
      cases others with
      | nil => exact ⟨_, _, rfl⟩
      | cons next others => exact ⟨_, _, rfl⟩
  obtain ⟨name, more, same⟩ := first
  rw [← tokens] at listed
  have whole : listedNames (.ident name :: more) = .some (columns.map (·.name), (Lexeme.source "FROM".toList path).tokens ++ rest) :=
    same ▸ listed
  rw [same, projected]
  · rw [whole]
    exact if_pos ⟨rfl, reads⟩
  · intro symbol others clash
    cases clash

/-- The columns of a result are the selected ones. -/
theorem projected_selected (entity : EdmEntity) (query : ODataQuery) (live : List Str) {clauses : List Lexeme}
    (clause : (tokensOf clauses).head? ≠ some (.punct '.')) :
    projected live (tablePath entity) (tokensOf (.keyword "SELECT".toList :: (selectLexemes query entity ++
        .source "FROM".toList (tablePath entity) :: clauses))) =
      some (if selectedColumns query entity = [] then live else (selectedColumns query entity).map (·.name)) := by
  have reads := readsFrom_table (tablePath entity) clause
  rw [selectLexemes, tokensOf_cons, tokensOf_append, tokensOf_cons]
  by_cases none : selectedColumns query entity = []
  · rw [if_pos none, if_pos none]
    exact if_pos ⟨rfl, rfl, reads⟩
  · rw [if_neg none, if_neg none]
    exact projected_columns none live (tablePath entity) reads

theorem projected_collection (entity : EdmEntity) (query : ODataQuery) (live : List Str) (maxTop : Int) :
    projected live (tablePath entity) (tokensOf (Statement.lexemes entity (.collection query maxTop))) =
      some (if selectedColumns query entity = [] then live else (selectedColumns query entity).map (·.name)) :=
  projected_selected entity query live (clauses_head query entity (cappedTop query maxTop) query.skip)

/-- A collection request without `$select`, answered with a page whose rows the
database returns. -/
structure Answered (catalog : Catalog) (binding : EntityBinding) (built : EdmEntity) (state : ServerState) (page : CollectionPage) :
    Prop where
  run : ∃ read request query database, Reaches state catalog request binding built query ∧
    (parseRoute state request.path).keys = [] ∧ query.select = [] ∧
    (∀ columns, catalog.columns (scopeOf binding) = .ok columns →
      Projects (columns.map (·.columnName)) (tablePath built) database) ∧
    Shows state (applyColumnPolicy built binding) query database page ∧
    (handleODataRequest read state catalog request).run database = .ok (makeJson 200 page.render)

/-- Each row of each collection response has the members that the metadata of the
same server declare for the type of the entity. -/
def Agrees (catalog : Catalog) (binding : EntityBinding) : Prop :=
  ∀ built state page root (index : Nat) (type : Node), Answered catalog binding built state page →
    Xml.read (metadataResponse state catalog).body = some root →
    (metadataEntities state catalog)[index]? = some (applyColumnPolicy built binding) → (entityTypes root)[index]? = some type →
      ∀ row ∈ page.result.rows, ∀ name,
        name ∈ (rowMembers page.result.names row).map Prod.fst ↔ ∃ prop ∈ type.childrenNamed "Property".toList, nameOf prop = some name

/-- Some column is visible, and the metadata declare every visible one. -/
def AllDeclared (entity : EdmEntity) : Prop :=
  entity.properties ≠ [] ∧
    ∀ prop ∈ entity.properties, ∃ declared ∈ entity.properties, declared.serializable = true ∧ declared.name = prop.name

private theorem declared_names {entity : EdmEntity} {entities : List EdmEntity} {index : Nat} {type : Node} {root : Node}
    (read : Xml.read (generateEdmx entities) = some root) (listed : entities[index]? = some entity)
    (typed : (entityTypes root)[index]? = some type) (name : Str) :
    (∃ prop ∈ type.childrenNamed "Property".toList, nameOf prop = some name) ↔
      ∃ prop ∈ entity.properties, prop.serializable = true ∧ prop.name = name := by
  have document : root = edmxNode entities := Option.some.inj (read.symm.trans (read_generateEdmx entities))
  rw [document, entityTypes_edmx, List.getElem?_map, listed] at typed
  cases typed
  rw [properties_entityType]
  have shown : ∀ prop : EdmProperty, nameOf (propertyNode prop) = some prop.name := fun _ => rfl
  constructor
  · rintro ⟨node, member, same⟩
    obtain ⟨prop, inside, rfl⟩ := List.mem_map.mp member
    obtain ⟨inside, serializable⟩ := List.mem_filter.mp inside
    exact ⟨prop, inside, serializable, Option.some.inj ((shown prop).symm.trans same)⟩
  · rintro ⟨prop, inside, serializable, rfl⟩
    exact ⟨_, List.mem_map_of_mem (List.mem_filter.mpr ⟨inside, serializable⟩), shown prop⟩

/-- A row has one member for each column. -/
theorem row_names {result : ResultSet} {row : Row} (member : row ∈ result.rows) :
    (rowMembers result.names row).map Prod.fst = result.names := by
  obtain ⟨chunk, listed, inside⟩ := List.mem_flatten.mp member
  have length := result.shaped chunk listed row inside
  have members : (rowMembers result.names row).map Prod.fst = (result.names.zip row).map Prod.fst := by
    rw [rowMembers, List.map_map]
    rfl
  rw [members, List.map_fst_zip length.ge]

/-- The catalog's type names are well formed. -/
def LexedTypes (catalog : Catalog) (binding : EntityBinding) : Prop :=
  ∀ columns, catalog.columns (scopeOf binding) = .ok columns → ∀ row ∈ columns, WellFormedType row.dataType

theorem visible_types {catalog : Catalog} {binding : EntityBinding} {built : EdmEntity} (types : LexedTypes catalog binding)
    (resolved : buildEntity catalog binding = .ok built) : WellFormedTypes (applyColumnPolicy built binding) :=
  fun prop member => buildEntity_types WellFormedType types resolved prop (applyColumnPolicy_property.mp member).1

theorem policy_path (built : EdmEntity) (binding : EntityBinding) :
    tablePath (applyColumnPolicy built binding) = tablePath built := by
  unfold applyColumnPolicy
  split <;> rfl

private theorem pagedQuery_select (state : ServerState) (query : ODataQuery) : (pagedQuery state query).1.select = query.select := by
  unfold pagedQuery
  split <;> rfl

private theorem shown_names {catalog : Catalog} {binding : EntityBinding} {built : EdmEntity} {state : ServerState}
    {query : ODataQuery} {database : Database} {page : CollectionPage} {columns : List ColumnRow}
    (types : LexedTypes catalog binding) (resolved : buildEntity catalog binding = .ok built) (every : query.select = [])
    (projects : Projects (columns.map (·.columnName)) (tablePath built) database)
    (shows : Shows state (applyColumnPolicy built binding) query database page) :
    page.result.names = if (applyColumnPolicy built binding).properties = [] then columns.map (·.columnName)
      else (applyColumnPolicy built binding).properties.map (·.name) := by
  obtain ⟨compiled, done, answered⟩ := shows.rows
  have statement : (Statement.collection (pagedQuery state query).1 state.maxTop).compile (applyColumnPolicy built binding) =
      .ok compiled := done
  have lexed := (Statement.lexes (visible_types types resolved) statement).lex
  have whole : selectedColumns (pagedQuery state query).1 (applyColumnPolicy built binding) = (applyColumnPolicy built binding).properties :=
    if_pos ((pagedQuery_select state query).trans every)
  have named := projected_collection (applyColumnPolicy built binding) (pagedQuery state query).1 (columns.map (·.columnName))
    state.maxTop
  rw [policy_path, whole] at named
  exact projects _ _ _ _ lexed named answered

private theorem declared_agrees {catalog : Catalog} {binding : EntityBinding} (types : LexedTypes catalog binding)
    (declared : ∀ built, buildEntity catalog binding = .ok built → Addressable binding.name →
      AllDeclared (applyColumnPolicy built binding)) : Agrees catalog binding := by
  intro built state page root index type answered read listed typed row member name
  obtain ⟨reader, request, query, database, reaches, keyless, every, projects, shows, -⟩ := answered.run
  obtain ⟨some, all⟩ := declared built reaches.resolved (findBinding_addressable reaches.named reaches.found)
  obtain ⟨columns, -, live, -⟩ := buildEntity_columns reaches.resolved
  rw [declared_names read listed typed, row_names member,
    shown_names types reaches.resolved every (projects columns live) shows, if_neg some]
  constructor
  · intro inside
    obtain ⟨prop, present, rfl⟩ := List.mem_map.mp inside
    exact all prop present
  · rintro ⟨prop, present, -, rfl⟩
    exact List.mem_map_of_mem present

/-- A row of nulls under the given names. -/
def nullRow (names : List Str) : ResultSet where
  names := names
  chunks := [[names.map fun _ => .null]]
  shaped := by
    intro chunk listed row inside
    rw [List.mem_singleton.mp listed] at inside
    rw [List.mem_singleton.mp inside, List.length_map]

/-- Every statement has one row of nulls. -/
def nullRows (live path : List Str) : Database
  | .query sql => .ok (.ok (nullRow (((Sql.lex sql).bind (projected live path)).getD [])))
  | .prepare _ => .error []
  | .execute _ => .error []
  | .fetch => .error []

theorem nullRows_projects (live path : List Str) : Projects live path (nullRows live path) := by
  intro sql tokens names result lexed named answered
  have same : nullRow (((Sql.lex sql).bind (projected live path)).getD []) = result := Except.ok.inj (Except.ok.inj answered)
  rw [← same, lexed, Option.bind_some, named]
  rfl

private theorem sole_compiles (entity : EdmEntity) (entitySet : Str) (maxTop : Int) :
    ∃ compiled, compileStatements { entitySet } entity maxTop = .ok (compiled, none) := by
  have columns : selectedProperties { entitySet } entity = .ok entity.properties := rfl
  unfold compileStatements compileCollection compileSelectList
  rw [columns]
  exact ⟨_, rfl⟩

private theorem sole_answered {catalog : Catalog} {binding : EntityBinding} {built : EdmEntity} {columns : List ColumnRow}
    (addressable : Addressable binding.name) (resolved : buildEntity catalog binding = .ok built)
    (live : catalog.columns (scopeOf binding) = .ok columns) :
    ∃ page, Answered catalog binding built (soleState binding) page ∧ page.result.rows ≠ [] := by
  obtain ⟨reaches, keyless⟩ := sole_reaches addressable resolved
  obtain ⟨compiled, done⟩ := sole_compiles (applyColumnPolicy built binding) binding.name 10000
  let names := ((Sql.lex compiled.sql).bind (projected (columns.map (·.columnName)) (tablePath built))).getD []
  let page := pageWith (soleState binding) (soleRequest binding) (applyColumnPolicy built binding) { entitySet := binding.name } none
    (nullRow names) false
  refine ⟨page, ⟨fun _ => none, soleRequest binding, _, nullRows (columns.map (·.columnName)) (tablePath built), reaches, keyless, rfl,
    ?_, ⟨rfl, ⟨compiled, (compileStatements_ok done).1, rfl⟩, nofun⟩, ?_⟩, List.cons_ne_nil _ _⟩
  · intro other live'
    rw [live] at live'
    cases live'
    exact nullRows_projects _ _
  · rw [reaches.handles, if_neg (not_not.mpr keyless), sole_collection done]
    rfl

private theorem agrees_declared {catalog : Catalog} {binding : EntityBinding} {built : EdmEntity} (types : LexedTypes catalog binding)
    (agrees : Agrees catalog binding) (resolved : buildEntity catalog binding = .ok built) (addressable : Addressable binding.name) :
    AllDeclared (applyColumnPolicy built binding) := by
  obtain ⟨first, others, keys, live, -⟩ := buildEntity_live resolved
  obtain ⟨page, answered, some⟩ := sole_answered addressable resolved live
  obtain ⟨row, member⟩ := List.exists_mem_of_ne_nil _ some
  have document : metadataEntities (soleState binding) catalog = [applyColumnPolicy built binding] := by
    simp [metadataEntities, soleState, metadataEntity, resolved]
  have read : Xml.read (metadataResponse (soleState binding) catalog).body = .some (edmxNode [applyColumnPolicy built binding]) := by
    rw [← document]
    exact read_generateEdmx _
  have listed : (metadataEntities (soleState binding) catalog)[0]? = .some (applyColumnPolicy built binding) := by
    rw [document]
    rfl
  have typed : (entityTypes (edmxNode [applyColumnPolicy built binding]))[0]? =
      .some (entityTypeNode (applyColumnPolicy built binding)) := by
    rw [entityTypes_edmx]
    rfl
  have same : ∀ name, name ∈ page.result.names ↔
      ∃ prop ∈ (applyColumnPolicy built binding).properties, prop.serializable = true ∧ prop.name = name := by
    intro name
    rw [← declared_names (read_generateEdmx [applyColumnPolicy built binding]) rfl typed, ← row_names member]
    exact agrees built _ page _ 0 _ answered read listed typed row member name
  obtain ⟨-, -, query, database, -, -, every, projects, shows, -⟩ := answered.run
  rw [shown_names types resolved every (projects _ live) shows] at same
  by_cases none : (applyColumnPolicy built binding).properties = []
  · rw [if_pos none] at same
    obtain ⟨prop, inside, -⟩ := (same first.columnName).mp List.mem_cons_self
    rw [none] at inside
    cases inside
  · rw [if_neg none] at same
    exact ⟨none, fun prop inside => (same prop.name).mp (List.mem_map_of_mem inside)⟩

/-- The rows of a collection have the members that the metadata declare exactly
if the table does not resolve, no path can name it, or some column is visible and
every visible column has a type with an EDM counterpart. -/
theorem agrees_iff (catalog : Catalog) (binding : EntityBinding) (types : LexedTypes catalog binding) :
    Agrees catalog binding ↔
      ∀ built, buildEntity catalog binding = .ok built → Addressable binding.name → AllDeclared (applyColumnPolicy built binding) :=
  ⟨fun agrees _ resolved addressable => agrees_declared types agrees resolved addressable, declared_agrees types⟩

private def documents (type : String) : Catalog where
  columns _ := .ok [{ columnName := "id".toList, dataType := "BIGINT".toList }, { columnName := "body".toList, dataType := type.toList }]
  primaryKeys _ := .ok []

private def notes : EntityBinding where
  name := "notes".toList
  table := "notes".toList

private theorem documents_lexed {type : String} (lexed : WellFormedType type.toList) : LexedTypes (documents type) notes := by
  intro columns live row listed
  cases live
  rcases List.mem_cons.mp listed with rfl | listed
  · exact .bigint
  · rw [List.mem_singleton.mp listed]
    exact lexed

private theorem notes_addressable : Addressable notes.name := ⟨List.cons_ne_nil _ _, every (by decide)⟩

/-- Columns of supported types agree, and a response is there to compare. -/
theorem agrees_iff_supported : Agrees (documents "BOOLEAN") notes ∧
    ∃ built page, Answered (documents "BOOLEAN") notes built (soleState notes) page ∧ page.result.rows ≠ [] := by
  constructor
  · apply (agrees_iff (documents "BOOLEAN") notes (documents_lexed .boolean)).mpr
    intro built resolved addressable
    cases resolved
    refine ⟨List.cons_ne_nil _ _, fun prop inside => ⟨prop, inside, ?_, rfl⟩⟩
    rcases List.mem_cons.mp inside with rfl | inside
    · rfl
    · rw [List.mem_singleton.mp inside]
      rfl
  · exact ⟨_, sole_answered notes_addressable rfl rfl⟩

/-- A JSON column is in every row, but not in the metadata. -/
theorem agrees_json : ¬ Agrees (documents "JSON") notes := by
  have json : WellFormedType "JSON".toList := ⟨Sql.lexes_word _ (by decide), by decide, by decide⟩
  intro agrees
  obtain ⟨-, declared⟩ := agrees_declared (documents_lexed json) agrees rfl notes_addressable
  obtain ⟨other, inside, supported, same⟩ := declared _ (List.mem_cons_of_mem _ List.mem_cons_self)
  rcases List.mem_cons.mp inside with rfl | inside
  · exact absurd same (by decide)
  · rw [List.mem_singleton.mp inside] at supported
    cases supported

end DuckdbOdata.PayloadNames
