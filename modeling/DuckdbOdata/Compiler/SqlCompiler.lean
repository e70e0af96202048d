import DuckdbOdata.Compiler.ExpressionCompiler

/-! Compilation of a query to one SQL statement (`compiler/sql_compiler.cpp`). -/

namespace DuckdbOdata
open Text

/-- Qualified as far as the catalog and the schema are known. -/
def quotedTable (entity : EdmEntity) : Str :=
  if entity.catalog ≠ [] ∧ entity.schema ≠ [] then
    quoteIdentifier entity.catalog ++ ".".toList ++ quoteIdentifier entity.schema ++ ".".toList ++ quoteIdentifier entity.table
  else if entity.schema ≠ [] then quoteIdentifier entity.schema ++ ".".toList ++ quoteIdentifier entity.table
  else quoteIdentifier entity.table

/-- One quote for every doubled quote. -/
def undouble : Str → Str
  | [] => []
  | [c] => [c]
  | c :: d :: rest => if c = '\'' ∧ d = '\'' then c :: undouble rest else c :: undouble (d :: rest)

/-- A key value without its quotes. The key lookup and the write path each have
a copy of this loop. -/
def unquoteKey (raw : Str) : Str :=
  if 2 ≤ raw.length ∧ raw.head? = some '\'' ∧ raw.getLast? = some '\'' then undouble (raw.tail.dropLast) else raw

/-- A key value as a literal of the key column's type. -/
def keyLiteralSql (prop : EdmProperty) (rawValue : Str) : Str :=
  let value := unquoteKey rawValue
  if prop.edmType = .string ∨ prop.edmType = .guid ∨ prop.edmType = .binary then quoteStringLiteral value
  else "CAST(".toList ++ quoteStringLiteral value ++ " AS ".toList ++ prop.duckdbType ++ ")".toList

/-- The first property with the given name. -/
def firstProperty (entity : EdmEntity) (name : Str) : Option EdmProperty :=
  entity.properties.find? fun prop => sameName prop.name name

def selectedProperty (entity : EdmEntity) (name : Str) : Except Exn EdmProperty :=
  match firstProperty entity name with
  | some prop => .ok prop
  | none =>
    .error (.odataParse ("$select property '".toList ++ name ++ "' does not exist on entity '".toList ++ entity.name ++
      "'".toList))

def selectedProperties (query : ODataQuery) (entity : EdmEntity) : Except Exn (List EdmProperty) :=
  if query.select = [] then .ok entity.properties else query.select.mapM (selectedProperty entity)

def compileSelectList (query : ODataQuery) (entity : EdmEntity) : Except Exn Str := do
  let selected ← selectedProperties query entity
  .ok (if selected = [] then "*".toList else ", ".toList.intercalate (selected.map fun prop => quoteIdentifier prop.name))

def compileFilterText (query : ODataQuery) (entity : EdmEntity) : Except Exn Str :=
  match query.filter with
  | none => .ok []
  | some filter => compile entity filter

/-- The `WHERE` clause, if there is a condition. -/
def whereClause (condition : Str) : Str := if condition = [] then [] else " WHERE ".toList ++ condition

/-- One sort term. The property is only looked up: the client's spelling is quoted. -/
def orderItem (entity : EdmEntity) (term : OrderByTerm) : Except Exn Str :=
  match firstProperty entity term.property with
  | some _ => .ok (quoteIdentifier term.property ++ if term.order = .desc then " DESC".toList else " ASC".toList)
  | none =>
    .error (.odataParse ("$orderby property '".toList ++ term.property ++ "' does not exist on entity '".toList ++
      entity.name ++ "'".toList))

def orderClause (query : ODataQuery) (entity : EdmEntity) : Except Exn Str :=
  if query.orderBy = [] then .ok []
  else do
    let items ← query.orderBy.mapM (orderItem entity)
    .ok (" ORDER BY ".toList ++ ", ".toList.intercalate items)

/-- `$top` below the server's cap; -1 is no limit. -/
def cappedTop (query : ODataQuery) (maxTop : Int) : Int :=
  if 0 ≤ query.top then
    if 0 ≤ maxTop ∧ maxTop < query.top then maxTop else query.top
  else -1

def limitClause (top skip : Int) : Str :=
  (if 0 ≤ top then " LIMIT ".toList ++ intText top else []) ++
    (if 0 ≤ skip then " OFFSET ".toList ++ intText skip else [])

structure CompiledQuery where
  sql : Str := []
  isCount : Bool := false
deriving DecidableEq

def compileCollection (query : ODataQuery) (entity : EdmEntity) (maxTop : Int) : Except Exn CompiledQuery := do
  let selectList ← compileSelectList query entity
  let condition ← compileFilterText query entity
  let order ← orderClause query entity
  .ok { sql := "SELECT ".toList ++ selectList ++ " FROM ".toList ++ quotedTable entity ++ whereClause condition ++ order ++
    limitClause (cappedTop query maxTop) query.skip }

def compileCount (query : ODataQuery) (entity : EdmEntity) : Except Exn CompiledQuery := do
  let condition ← compileFilterText query entity
  .ok {
    sql := "SELECT COUNT(*) AS __odata_count FROM ".toList ++ quotedTable entity ++ whereClause condition
    isCount := true }

def compileByKey (query : ODataQuery) (entity : EdmEntity) (keyValues : List Str) : Except Exn CompiledQuery :=
  let keys := entity.properties.filter (·.isKey)
  if keys = [] then .error (.odataParse ("entity '".toList ++ entity.name ++ "' has no key configured".toList))
  else if keyValues.length ≠ keys.length then
    .error (.odataParse ("key lookup expects ".toList ++ intText keys.length ++ " key value(s), got ".toList ++
      intText keyValues.length))
  else do
    let selectList ← compileSelectList query entity
    let conditions := (keys.zip keyValues).map fun (key, value) =>
      quoteIdentifier key.name ++ " = ".toList ++ keyLiteralSql key value
    .ok { sql := "SELECT ".toList ++ selectList ++ " FROM ".toList ++ quotedTable entity ++ " WHERE ".toList ++
      " AND ".toList.intercalate conditions ++ " LIMIT 1".toList }

end DuckdbOdata
