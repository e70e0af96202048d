import DuckdbOdata.Metadata.EdmModel

/-! Building an entity from the live catalog (`metadata/metadata_generator.cpp`).
The catalog's table functions are answered by a snapshot of the catalog. -/

namespace DuckdbOdata
open Text

structure EntityBinding where
  name : Str := []
  table : Str := []
  schema : Str := []
  catalog : Str := []
  configuredKeys : List Str := []
  configuredColumns : List Str := []
deriving DecidableEq

/-- A row of `duckdb_columns()`; a null text is empty, a null flag is `true`. -/
structure ColumnRow where
  columnName : Str
  dataType : Str
  isNullable : Bool := true
  databaseName : Str := []
  schemaName : Str := []
deriving DecidableEq

/-- Where a table is looked up; `none` is `current_catalog()`, `current_schema()`. -/
structure Scope where
  catalog : Option Str
  schema : Option Str
  table : Str
deriving DecidableEq

/-- What the introspection queries answer: the columns of a table in order and
the column lists of its primary keys, or the error of the query. -/
structure Catalog where
  columns : Scope → Except Str (List ColumnRow)
  primaryKeys : Scope → Except Str (List (List Str))

def scopeOf (binding : EntityBinding) : Scope where
  catalog := if binding.catalog = [] then none else some binding.catalog
  schema := if binding.schema = [] then none else some binding.schema
  table := binding.table

/-- `RunSql`: an error of the query becomes a parse exception. -/
def introspected (answer : Except Str α) : Except Exn α :=
  match answer with
  | .ok value => .ok value
  | .error message => .error (.odataParse ("catalog introspection failed: ".toList ++ message))

def missingTable (binding : EntityBinding) : Exn :=
  .odataParse ("table '".toList ++ binding.table ++ "' does not exist or is not readable in schema '".toList ++
    (if binding.schema = [] then "<current>".toList else binding.schema) ++ "'".toList ++
    (if binding.schema = [] then
      "; table may live in another schema - qualify it, e.g. odata_expose('schema.table')".toList else []))

def propertyOf (column : ColumnRow) : EdmProperty where
  name := column.columnName
  edmType := (duckDBTypeToEdm column.dataType).1
  nullable := column.isNullable
  duckdbType := column.dataType
  serializable := (duckDBTypeToEdm column.dataType).2

def findNamed (props : List EdmProperty) (name : Str) : Option EdmProperty :=
  props.find? fun prop => sameName prop.name name

def configuredKey (binding : EntityBinding) (props : List EdmProperty) (key : Str) : Except Exn Str :=
  match findNamed props key with
  | some prop => .ok prop.name
  | none =>
    .error (.odataParse ("key column '".toList ++ key ++ "' does not exist on table '".toList ++ binding.table ++ "'".toList))

/-- The first single-column primary key that names a property. -/
def catalogKey (props : List EdmProperty) : List (List Str) → Option Str
  | [] => none
  | [key] :: others =>
    match findNamed props key with
    | some prop => some prop.name
    | none => catalogKey props others
  | _ :: others => catalogKey props others

/-- Configured keys, else the primary key, else the first column. -/
def resolveKeys (catalog : Catalog) (binding : EntityBinding) (props : List EdmProperty) : Except Exn (List Str) :=
  if binding.configuredKeys ≠ [] then binding.configuredKeys.mapM (configuredKey binding props)
  else do
    let constraints ← introspected (catalog.primaryKeys (scopeOf binding))
    match catalogKey props constraints with
    | some key => .ok [key]
    | none => .ok ((props.take 1).map (·.name))

def markKey (keys : List Str) (prop : EdmProperty) : EdmProperty :=
  if keys.any (fun key => decide (sameName prop.name key)) then { prop with isKey := true } else prop

def buildEntity (catalog : Catalog) (binding : EntityBinding) : Except Exn EdmEntity := do
  let columns ← introspected (catalog.columns (scopeOf binding))
  match columns with
  | [] => .error (missingTable binding)
  | first :: _ =>
    let props := columns.map propertyOf
    let keys ← resolveKeys catalog binding props
    .ok {
      name := binding.name
      catalog := first.databaseName
      schema := first.schemaName
      table := binding.table
      properties := props.map (markKey keys)
      hasKey := keys ≠ [] }

end DuckdbOdata
