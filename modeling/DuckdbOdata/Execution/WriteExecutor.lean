import DuckdbOdata.Compiler.SqlCompiler
import DuckdbOdata.Execution.ResultSerializer
import DuckdbOdata.Server.HttpRequest

/-! Inserting, updating and deleting one entity in a transaction
(`execution/write_executor.cpp`). -/

namespace DuckdbOdata
open Text

def writeError (status : Nat) (message : Str) : HttpResponse where
  status := status
  headers := [("Content-Type".toList, "application/json".toList), ("OData-Version".toList, "4.0".toList)]
  body := "\x7b\"error\":\x7b\"code\":\"WriteError\",\"message\":\"".toList ++ jsonEscape message ++ "\"\x7d\x7d".toList

def hexUpper (n : Nat) : Char := "0123456789ABCDEF".toList.getD n '0'

/-- Characters that a path segment keeps. -/
def unreserved (c : Char) : Bool := c.isAlphanum || c == '-' || c == '_'

def encodePathChar (c : Char) : Str :=
  if unreserved c then [c] else ['%', hexUpper (c.toNat / 16), hexUpper (c.toNat % 16)]

def encodePath (text : Str) : Str := text.flatMap encodePathChar

/-- A member of the request body as the JSON reader delivers it: numbers stay raw. -/
inductive BodyValue
  | null
  | string (value : Str)
  | raw (digits : Str)
  | boolean (value : Bool)
  | other
deriving DecidableEq

/-- The members of the body's object in order; `none` if it is no JSON object. -/
abbrev BodyReader := Str → Option (List (Str × BodyValue))

/-- `columns`, `placeholders`, `assignments` and `values`, built member by member. -/
structure Assignments where
  seen : List Str := []
  columns : Str := []
  placeholders : Str := []
  assignments : Str := []
  values : List Value := []

def bodyParameter (prop : EdmProperty) (field : Str) : BodyValue → Except HttpResponse Value
  | .null =>
    if prop.nullable = false ∨ prop.isKey then .error (writeError 400 ("null is not allowed: ".toList ++ field)) else .ok .null
  | .string value => .ok (.text value)
  | .raw digits => .ok (.text digits)
  | .boolean value => .ok (.boolean value)
  | .other => .error (writeError 400 ("property must be a scalar: ".toList ++ field))

def castParameter (prop : EdmProperty) : Str := "CAST(? AS ".toList ++ prop.duckdbType ++ ")".toList

def addMember (update : Bool) (entity : EdmEntity) (built : Assignments) (member : Str × BodyValue) :
    Except HttpResponse Assignments :=
  let (field, value) := member
  if toLower field ∈ built.seen then .error (writeError 400 ("duplicate property: ".toList ++ field))
  else match findProperty entity field with
    | none => .error (writeError 400 ("unknown or hidden property: ".toList ++ field))
    | some prop =>
      if prop.serializable = false ∨ prop.edmType = .binary then
        .error (writeError 400 ("unsupported write type: ".toList ++ field))
      else if update ∧ prop.isKey then .error (writeError 400 "PATCH cannot change the key".toList)
      else do
        let parameter ← bodyParameter prop field value
        -- One comma test in the source, on `columns`; the three texts grow together.
        let comma := if built.columns = [] then [] else ",".toList
        .ok {
          seen := toLower field :: built.seen
          columns := built.columns ++ comma ++ quoteIdentifier prop.name
          placeholders := built.placeholders ++ comma ++ castParameter prop
          assignments := built.assignments ++ comma ++ quoteIdentifier prop.name ++ "=".toList ++ castParameter prop
          values := built.values ++ [parameter] }

/-- The media type without its parameters. -/
def mediaType (request : HttpRequest) : Str :=
  toLower (trim ((request.getHeader "Content-Type".toList).takeWhile (· ≠ ';')))

/-- The one key property. -/
def writeKey (entity : EdmEntity) : Except HttpResponse EdmProperty :=
  match entity.properties.filter (·.isKey) with
  | [] => .error (writeError 400 "writes require an exposed key column".toList)
  | [key] =>
    if key.serializable = false ∨ key.edmType = .binary then .error (writeError 400 "unsupported key type for writes".toList)
    else .ok key
  | _ => .error (writeError 400 "compound keys are not supported".toList)

def writeAssignments (read : BodyReader) (request : HttpRequest) (entity : EdmEntity) (insert update : Bool) :
    Except HttpResponse Assignments :=
  if insert ∨ update then
    if mediaType request ≠ "application/json".toList then
      .error (writeError 415 "Content-Type must be application/json".toList)
    else match read request.body with
      | none => .error (writeError 400 "body must be a JSON object".toList)
      | some members => do
        let built ← members.foldlM (addMember update entity) {}
        if update ∧ built.values = [] then .error (writeError 400 "PATCH requires at least one property".toList)
        else .ok built
  else if request.body ≠ [] then .error (writeError 400 "DELETE must not contain a body".toList)
  else .ok {}

def writeTable (entity : EdmEntity) : Str :=
  quoteIdentifier entity.catalog ++ ".".toList ++ quoteIdentifier entity.schema ++ ".".toList ++ quoteIdentifier entity.table

def returningClause (entity : EdmEntity) : Str :=
  " RETURNING ".toList ++ ",".toList.intercalate (entity.properties.map fun prop => quoteIdentifier prop.name)

/-- The statement with its parameters, ready to be prepared. -/
structure WritePlan where
  sql : Str
  parameters : List Value
  key : EdmProperty

def insertSql (entity : EdmEntity) (built : Assignments) : Str :=
  "INSERT INTO ".toList ++ writeTable entity ++
    if built.values = [] then " DEFAULT VALUES".toList
    else " (".toList ++ built.columns ++ ") VALUES (".toList ++ built.placeholders ++ ")".toList

def keyedSql (entity : EdmEntity) (key : EdmProperty) (update : Bool) (built : Assignments) : Str :=
  (if update then "UPDATE ".toList ++ writeTable entity ++ " SET ".toList ++ built.assignments
    else "DELETE FROM ".toList ++ writeTable entity) ++
    " WHERE ".toList ++ quoteIdentifier key.name ++ " = ".toList ++ castParameter key

/-- Everything before the transaction: the checks, in order, and the statement. -/
def planWrite (read : BodyReader) (request : HttpRequest) (entity : EdmEntity) (keys : List Str) :
    Except HttpResponse WritePlan :=
  let insert := request.method = "POST".toList
  let update := request.method = "PATCH".toList
  if request.query ≠ [] then .error (writeError 400 "query options are not supported on writes".toList)
  else if request.hasHeader "If-Match".toList ∨ request.hasHeader "If-None-Match".toList then
    .error (writeError 400 "conditional writes are not supported".toList)
  else if (insert ∧ keys ≠ []) ∨ (¬ insert ∧ keys.length ≠ 1) then
    .error (writeError 400 "POST requires a collection; PATCH and DELETE require one key".toList)
  else do
    let key ← writeKey entity
    let built ← writeAssignments read request entity insert update
    if insert then .ok ⟨insertSql entity built ++ returningClause entity, built.values, key⟩
    else
      let value := unquoteKey (keys.headD [])
      .ok ⟨keyedSql entity key update built ++ returningClause entity, built.values ++ [.text value], key⟩

/-- Key types whose values are quoted in a `Location`. -/
def quotedKey (type : EdmType) : Prop :=
  type = .string ∨ type = .guid ∨ type = .date ∨ type = .timeOfDay ∨ type = .dateTimeOffset

instance (type : EdmType) : Decidable (quotedKey type) := inferInstanceAs (Decidable (_ ∨ _))

def keyLiteral (key : EdmProperty) (value : Value) : Str :=
  if quotedKey key.edmType then quoteStringLiteral value.toText else value.toText

def location (basePath : Str) (entity : EdmEntity) (key : EdmProperty) (value : Value) : Str :=
  basePath ++ "/".toList ++ encodePath entity.name ++ "(".toList ++ encodePath (keyLiteral key value) ++ ")".toList

/-- The values of the key columns of a returned row. -/
def keyValues (entity : EdmEntity) (row : Row) : List Value :=
  ((entity.properties.zip row).filter (·.1.isKey)).map (·.2)

/-- The 201 response, or the error for a key that came out as null. -/
def createdResponse (entity : EdmEntity) (key : EdmProperty) (row : Row) (basePath : Str) : Except HttpResponse HttpResponse :=
  if Value.null ∈ keyValues entity row then
    .error (writeError 409 "inserted entity has a null key; write rolled back".toList)
  else
    let json : List (Str × Str) :=
      [("OData-Version".toList, "4.0".toList), ("Content-Type".toList, "application/json".toList)]
    .ok {
      status := 201
      headers := match (keyValues entity row).getLast? with
        | none => json
        | some value => setHeader "Location".toList (location basePath entity key value) json
      body := '{' :: (serializeMembers (entity.properties.map (·.name)) row ++ ['}']) }

def deletedOrUpdated : HttpResponse where
  status := 204
  headers := [("OData-Version".toList, "4.0".toList)]

/-- What the block of the `Transaction` object leaves: whether `committed` was
set, and the result. -/
structure Outcome where
  committed : Bool
  result : Except Exn HttpResponse

def abandoned (response : HttpResponse) : Outcome := ⟨false, .ok response⟩

def threw (what : Str) : Outcome := ⟨false, .error (.duckdb what)⟩

def commitWith (response : HttpResponse) : DbProgram Outcome := do
  match ← DbProgram.query "COMMIT".toList with
  | .error what => return threw what
  | .ok (.error failure) => return abandoned (writeError 409 failure.message)
  | .ok (.ok _) => return ⟨true, .ok response⟩

def notFound : HttpResponse := writeError 404 "entity with key not found".toList

/-- After the first row of a non-empty first chunk. -/
def finishWrite (insert : Bool) (plan : WritePlan) (entity : EdmEntity) (basePath : Str) (row : Row) (more : List Row)
    (extra : Option (List Row)) : DbProgram Outcome :=
  if more ≠ [] ∨ extra.getD [] ≠ [] then return abandoned (writeError 409 "key is not unique; write rolled back".toList)
  else if insert then
    match createdResponse entity plan.key row basePath with
    | .error response => return abandoned response
    | .ok response => commitWith response
  else commitWith deletedOrUpdated

/-- The statement inside the transaction. -/
def performWrite (insert : Bool) (plan : WritePlan) (entity : EdmEntity) (basePath : Str) : DbProgram Outcome := do
  match ← DbProgram.prepare plan.sql with
  | .error what => return threw what
  | .ok (some message) => return abandoned (writeError 400 message)
  | .ok none =>
    match ← DbProgram.execute plan.parameters with
    | .error what => return threw what
    | .ok (.error failure) => return abandoned (writeError (if failure.conflict then 409 else 400) failure.message)
    | .ok (.ok _) =>
      match ← DbProgram.fetch with
      | .error what => return threw what
      | .ok none => return abandoned notFound
      | .ok (some []) => return abandoned notFound
      | .ok (some (row :: more)) =>
        match ← DbProgram.fetch with
        | .error what => return threw what
        | .ok extra => finishWrite insert plan entity basePath row more extra

/-- The destructor of `Transaction` rolls back unless `committed` is set, and
ignores what the rollback does. -/
def closing (outcome : Outcome) : DbProgram (Except Exn HttpResponse) :=
  if outcome.committed then return outcome.result
  else do
    let _ ← DbProgram.query "ROLLBACK".toList
    return outcome.result

def executeWrite (read : BodyReader) (request : HttpRequest) (entity : EdmEntity) (keys : List Str) (basePath : Str) :
    DbProgram (Except Exn HttpResponse) :=
  match planWrite read request entity keys with
  | .error response => return .ok response
  | .ok plan => do
    match ← DbProgram.query "BEGIN TRANSACTION".toList with
    | .error what => return .error (.duckdb what)
    | .ok (.error _) => return .ok (writeError 500 "could not start write transaction".toList)
    | .ok (.ok _) => do
      let outcome ← performWrite (request.method = "POST".toList) plan entity basePath
      closing outcome

end DuckdbOdata
