import DuckdbOdata.Foundation.Upsert
import DuckdbOdata.Metadata.MetadataGenerator
import Mathlib.Data.List.Dedup

/-! The SQL commands that fill the registry of exposed entities
(`odata_extension.cpp`; names are parsed and resolved in
`metadata/metadata_generator.cpp`). -/

namespace DuckdbOdata
open Text

structure TableRow where
  databaseName : Str
  schemaName : Str
  tableName : Str
deriving DecidableEq

/-- What the connection of one command answers: the tables of `duckdb_columns()`
that are not internal, those of `duckdb_tables()` that are not temporary either,
and the current names. -/
structure Session extends Catalog where
  columnTables : Except Str (List TableRow)
  baseTables : Except Str (List TableRow)
  currentSchema : Except Str Str
  currentCatalog : Except Str Str

def parseQualifiedBinding (qualifiedName : Str) : Except Exn EntityBinding :=
  let input := trim qualifiedName
  if input = [] then .error (.odataParse "empty entity identifier".toList)
  else if [] ∈ fields '.' input then
    .error (.odataParse ("invalid qualified identifier '".toList ++ qualifiedName ++ "'".toList))
  else match fields '.' input with
    | [table] => .ok { table, name := table }
    | [schema, table] => .ok { schema, table, name := schema ++ "_".toList ++ table }
    | [catalog, schema, table] =>
      .ok { catalog, schema, table, name := catalog ++ "_".toList ++ schema ++ "_".toList ++ table }
    | _ =>
      .error (.odataParse ("too many qualifiers (catalog.schema.table only): '".toList ++ qualifiedName ++ "'".toList))

/-- The catalog, empty for the current one, and the schema. -/
def parseQualifiedSchema (qualifiedName : Str) : Except Exn (Str × Str) :=
  let input := trim qualifiedName
  if input = [] then .error (.odataParse "empty schema identifier".toList)
  else match cut '.' input with
    | none => .ok ([], input)
    | some (catalog, schema) =>
      if '.' ∈ schema then
        .error (.odataParse ("schema reference must be 'schema' or 'catalog.schema': '".toList ++ qualifiedName ++ "'".toList))
      else if catalog = [] ∨ schema = [] then
        .error (.odataParse ("invalid schema identifier '".toList ++ qualifiedName ++ "'".toList))
      else .ok (catalog, schema)

/-- Whether a table is where the binding asks for it. -/
def EntityBinding.locates (binding : EntityBinding) (row : TableRow) : Prop :=
  row.tableName = binding.table ∧ (binding.schema = [] ∨ row.schemaName = binding.schema) ∧
    (binding.catalog = [] ∨ row.databaseName = binding.catalog)

instance (binding : EntityBinding) (row : TableRow) : Decidable (binding.locates row) := inferInstanceAs (Decidable (_ ∧ _ ∧ _))

/-- The catalogs and schemas that have the table. -/
def locations (session : Session) (binding : EntityBinding) : Except Str (List (Str × Str)) := do
  let rows ← session.columnTables
  .ok ((rows.filter (binding.locates ·)).map fun row => (row.databaseName, row.schemaName)).dedup

/-- Pins the catalog and the schema of the table. -/
def resolveBindingTable (session : Session) (binding : EntityBinding) : Except Exn EntityBinding := do
  let found ← introspected (locations session binding)
  if binding.schema = [] ∧ binding.catalog = [] then
    match found with
    | [] => .error (.odataParse ("table '".toList ++ binding.table ++ "' does not exist".toList))
    | [(catalog, schema)] => .ok { binding with catalog, schema }
    | _ =>
      .error (.odataParse ("table '".toList ++ binding.table ++ "' exists in multiple schemas; qualify it, e.g. ".toList ++
        "odata_expose('schema.table')".toList))
  else
    match found with
    | [] =>
      .error (.odataParse ("table '".toList ++ binding.table ++ "' does not exist in schema '".toList ++
        (if binding.schema = [] then "<current>".toList else binding.schema) ++ "'".toList))
    | (catalog, schema) :: others =>
      if binding.catalog = [] ∧ others ≠ [] then
        .error (.odataParse ("table '".toList ++ binding.table ++ "' exists in multiple catalogs under schema '".toList ++
          binding.schema ++ "'; qualify it, e.g. odata_expose('catalog.schema.table')".toList))
      else .ok { binding with catalog, schema }

/-- A scalar query; empty if it fails. -/
def scalarQueryResult (answer : Except Str Str) : Str :=
  match answer with
  | .ok value => value
  | .error _ => []

/-- The table as it is reported to the caller. -/
def bindingTableRef (binding : EntityBinding) (currentSchema currentCatalog : Str) : Str :=
  if binding.catalog ≠ [] ∧ binding.catalog ≠ currentCatalog then
    binding.catalog ++ ".".toList ++ binding.schema ++ ".".toList ++ binding.table
  else if binding.schema ≠ [] ∧ binding.schema ≠ currentSchema then binding.schema ++ ".".toList ++ binding.table
  else binding.table

/-- The public name of a table of an exposed schema. -/
def schemaEntityName (binding : EntityBinding) (currentSchema currentCatalog : Str) : Str :=
  if binding.catalog ≠ [] ∧ binding.catalog ≠ currentCatalog then
    binding.catalog ++ "_".toList ++ (binding.schema ++ "_".toList ++ binding.table)
  else if binding.schema = currentSchema then binding.table
  else binding.schema ++ "_".toList ++ binding.table

/-- A parse exception becomes an `InvalidInputException` of the command. -/
def invalidInput (command : String) (result : Except Exn α) : Except Exn α :=
  match result with
  | .error (.odataParse message) => .error (.duckdb (command.toList ++ " failed: ".toList ++ message))
  | other => other

/-- Every column of the allow-list must exist. -/
def checkColumns (catalog : Catalog) (binding : EntityBinding) : Except Exn Unit :=
  if binding.configuredColumns = [] then .ok ()
  else do
    let entity ← buildEntity catalog binding
    match binding.configuredColumns.find? fun column => entity.properties.all fun prop => ¬ sameName prop.name column with
    | none => .ok ()
    | some column =>
      .error (.odataParse ("column '".toList ++ column ++ "' does not exist on table '".toList ++ binding.table ++ "'".toList))

def exposedBinding (session : Session) (arg : Str) (columns : List Str) : Except Exn EntityBinding := do
  let parsed ← parseQualifiedBinding arg
  let resolved ← resolveBindingTable session parsed
  let binding := { resolved with configuredColumns := columns }
  checkColumns session.toCatalog binding
  .ok binding

/-- Replaces an existing binding of the same entity name, else appends. -/
def storeExposed (bindings : List EntityBinding) (binding : EntityBinding) : List EntityBinding :=
  upsert (fun old => sameName old.name binding.name) (fun _ => binding) binding bindings

/-- One row of the result: the entity and its table. -/
def reportRow (session : Session) (binding : EntityBinding) : Str × Str :=
  (binding.name, bindingTableRef binding (scalarQueryResult session.currentSchema) (scalarQueryResult session.currentCatalog))

def exposeExecute (session : Session) (bindings : List EntityBinding) (arg : Str) (columns : List Str) :
    Except Exn (List EntityBinding × List (Str × Str)) :=
  if arg = [] then .error (.duckdb "odata_expose requires a table name".toList)
  else do
    let binding ← invalidInput "odata_expose" (exposedBinding session arg columns)
    .ok (storeExposed bindings binding, [reportRow session binding])

def catalogScope (session : Session) (catalog : Str) : Except Str Str :=
  if catalog = [] then session.currentCatalog else .ok catalog

/-- The base tables of the schema. -/
def schemaTables (session : Session) (catalog schema : Str) : Except Str (List TableRow) := do
  let rows ← session.baseTables
  let database ← catalogScope session catalog
  .ok (rows.filter fun row => row.schemaName = schema ∧ row.databaseName = database)

def schemaBinding (session : Session) (schema : Str) (row : TableRow) : EntityBinding :=
  let binding : EntityBinding := { table := row.tableName, schema := schema, catalog := row.databaseName }
  { binding with
    name := schemaEntityName binding (scalarQueryResult session.currentSchema) (scalarQueryResult session.currentCatalog) }

/-- The bindings that the schema gives, in the order of its tables. -/
def schemaBindings (session : Session) (arg : Str) : Except Exn (List EntityBinding) := do
  let (catalog, schema) ← invalidInput "odata_expose_schema" (parseQualifiedSchema arg)
  match schemaTables session catalog schema with
  | .error message => .error (.duckdb ("odata_expose_schema failed: ".toList ++ message))
  | .ok rows => .ok ((rows.filter (·.tableName ≠ [])).map (schemaBinding session schema))

/-- Replaces a binding of the same name, schema and catalog, else appends. -/
def storeSchema (bindings : List EntityBinding) (binding : EntityBinding) : List EntityBinding :=
  upsert (fun old => sameName old.name binding.name ∧ sameName old.schema binding.schema ∧ sameName old.catalog binding.catalog)
    (fun _ => binding) binding bindings

def exposeSchemaExecute (session : Session) (bindings : List EntityBinding) (arg : Str) :
    Except Exn (List EntityBinding × List (Str × Str)) :=
  if arg = [] then .error (.duckdb "odata_expose_schema requires a schema name".toList)
  else do
    let exposed ← schemaBindings session arg
    .ok (exposed.foldl storeSchema bindings, exposed.map (reportRow session))

def keyedBinding (session : Session) (arg key : Str) : Except Exn EntityBinding := do
  let parsed ← parseQualifiedBinding arg
  let resolved ← resolveBindingTable session parsed
  .ok { resolved with configuredKeys := [key] }

/-- Sets the keys of an existing binding of the same entity name, else appends. -/
def storeKeyed (bindings : List EntityBinding) (binding : EntityBinding) : List EntityBinding :=
  upsert (fun old => sameName old.name binding.name) (fun old => { old with configuredKeys := binding.configuredKeys })
    binding bindings

/-- `ActionExecute` of `odata_entity`. -/
def entityExecute (session : Session) (bindings : List EntityBinding) (arg key : Str) :
    Except Exn (List EntityBinding × List (Str × Str)) :=
  if arg = [] ∨ key = [] then .error (.duckdb "odata_entity requires a table name and a key column".toList)
  else do
    let binding ← invalidInput "odata_entity" (keyedBinding session arg key)
    .ok (storeKeyed bindings binding, [])

inductive Command
  | expose (arg : Str) (columns : List Str)
  | exposeSchema (arg : Str)
  | entity (arg key : Str)
deriving DecidableEq

/-- A command in the session that runs it: the new registry and the rows
reported, or the exception, which leaves the registry as it was. -/
def Command.execute (session : Session) (bindings : List EntityBinding) : Command → Except Exn (List EntityBinding × List (Str × Str))
  | .expose arg columns => exposeExecute session bindings arg columns
  | .exposeSchema arg => exposeSchemaExecute session bindings arg
  | .entity arg key => entityExecute session bindings arg key

/-- A successful call. Another one may see another catalog. -/
def Calls (before : List EntityBinding) (call : Session × Command) (after : List EntityBinding) : Prop :=
  ∃ rows, call.2.execute call.1 before = .ok (after, rows)

end DuckdbOdata
