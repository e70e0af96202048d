import DuckdbOdata.Auth.BearerToken
import DuckdbOdata.Execution.WriteExecutor
import DuckdbOdata.Parser.ODataParser
import DuckdbOdata.Server.Routing

/-! The handler of one request (`HandleODataRequest` in `server/odata_server.cpp`).
The catalog is the snapshot that the request's introspection queries see. -/

namespace DuckdbOdata
open Text

abbrev Handler := DbProgram (Except Exn HttpResponse)

def respond (response : HttpResponse) : Handler := return .ok response

/-- `try { … } catch (const ODataParseException &e) { return MakeError(…); }`:
any other exception passes through. -/
def catching (status : Nat) (code : String) (result : Except Exn α) (next : α → Handler) : Handler :=
  match result with
  | .ok value => next value
  | .error (.odataParse message) => respond (makeError status code message)
  | .error failure => return .error failure

/-- `executor.Execute` with the error response of a failed query. -/
def executing (sql : Str) (next : ResultSet → Handler) : Handler := do
  match ← DbProgram.query sql with
  | .error what => return .error (.duckdb what)
  | .ok (.error failure) => respond (makeError 500 "InternalError" failure.message)
  | .ok (.ok result) => next result

def writing (request : HttpRequest) : Prop :=
  request.method = "POST".toList ∨ request.method = "PATCH".toList ∨ request.method = "DELETE".toList

instance (request : HttpRequest) : Decidable (writing request) := inferInstanceAs (Decidable (_ ∨ _))

/-- The checks before routing. -/
def rejected (state : ServerState) (request : HttpRequest) : Option HttpResponse :=
  if state.token ≠ [] ∧ checkBearerToken (request.getHeader "Authorization".toList) state.token = false then
    some (makeError 401 "Unauthorized" "missing or invalid bearer token".toList)
  else if request.method ≠ "GET".toList ∧ (¬ writing request ∨ state.readOnly) then
    some (makeError 405 "MethodNotAllowed" "write method disabled or unsupported".toList)
  else none

/-- One binding in the service document; the name is escaped as a JSON string. -/
def serviceElement (binding : EntityBinding) : Str :=
  "\x7b\"name\":\"".toList ++ jsonEscape binding.name ++ "\",\"kind\":\"EntitySet\",\"url\":\"".toList ++
    jsonEscape binding.name ++ "\"\x7d".toList

def resolves (catalog : Catalog) (binding : EntityBinding) : Bool :=
  match buildEntity catalog binding with
  | .ok _ => true
  | .error _ => false

def serviceDocument (state : ServerState) (catalog : Catalog) : Str :=
  "\x7b\"@odata.context\":\"".toList ++ state.basePath ++ "/$metadata\",\"value\":[".toList ++
    ",".toList.intercalate ((state.bindings.filter (resolves catalog)).map serviceElement) ++ "]\x7d".toList

/-- The entity of a binding in `$metadata`; one that no longer resolves is skipped. -/
def metadataEntity (catalog : Catalog) (binding : EntityBinding) : Option EdmEntity :=
  match buildEntity catalog binding with
  | .ok entity => some (applyColumnPolicy entity binding)
  | .error _ => none

def metadataEntities (state : ServerState) (catalog : Catalog) : List EdmEntity :=
  state.bindings.filterMap (metadataEntity catalog)

def metadataResponse (state : ServerState) (catalog : Catalog) : HttpResponse where
  headers := [("Content-Type".toList, "application/xml".toList), ("OData-Version".toList, "4.0".toList)]
  body := generateEdmx (metadataEntities state catalog)

def findBinding (bindings : List EntityBinding) (name : Str) : Option EntityBinding :=
  bindings.find? fun binding => sameName binding.name name

/-- The first system option that is not supported. -/
def unsupportedOption (options : List (Str × Str)) : Option Str :=
  (options.find? fun option => option.1.head? = some '$' && !isSystemOption option.1).map (·.1)

/-- One round of the loop over the query options. -/
def applyOption (maxFilterDepth : Int) (query : ODataQuery) (option : Str × Str) : Except Exn ODataQuery :=
  let (name, value) := option
  if name = "$select".toList then .ok { query with select := parseSelect value }
  else if name = "$filter".toList then
    if filterWithinDepth value maxFilterDepth = false then .error (.odataParse "$filter exceeds odata_max_filter_depth".toList)
    else do
      let filter ← parseFilter value
      .ok { query with filter := some filter }
  else if name = "$orderby".toList then do
    let orderBy ← parseOrderBy value
    .ok { query with orderBy }
  else if name = "$top".toList then do
    let top ← parseNonNegativeInt "top".toList value
    .ok { query with top }
  else if name = "$skip".toList then do
    let skip ← parseNonNegativeInt "skip".toList value
    .ok { query with skip }
  else if name = "$count".toList then do
    let count ← parseBooleanOption "count".toList value
    .ok { query with count }
  else if name = "$skiptoken".toList then do
    let skip ← parseNonNegativeInt "skiptoken".toList value
    .ok { query with skip }
  else .ok query

def parseOptions (maxFilterDepth : Int) (entitySet : Str) (options : List (Str × Str)) : Except Exn ODataQuery :=
  options.foldlM (applyOption maxFilterDepth) { entitySet }

/-- `GetValue<int64_t>` of a count. -/
def Value.asInt64 : Value → Except Exn Int
  | .integer value => .ok value
  | _ => .error (.duckdb "GetValue".toList)

/-- The first value of the first chunk, if there is one. -/
def ResultSet.firstValue (result : ResultSet) : Option Value :=
  match result.chunks with
  | (row :: _) :: _ => row.head?
  | _ => none

/-- A single entity. -/
def entityBody (state : ServerState) (entity : EdmEntity) (members : Str) : Str :=
  "\x7b\"@odata.context\":\"".toList ++ entityContextUri state entity.name true ++ "\",".toList ++ members ++ "\x7d".toList

def keyLookup (state : ServerState) (entity : EdmEntity) (query : ODataQuery) (keys : List Str) : Handler :=
  if entity.hasKey = false then
    respond (makeError 400 "EntityHasNoKey" ("entity set '".toList ++ entity.name ++ "' has no key configured".toList))
  else if keys.length ≠ 1 then respond (makeError 400 "InvalidKey" "compound keys are not supported in v0.1".toList)
  else
    catching 400 "InvalidQuery" (compileByKey query entity keys) fun compiled =>
      executing compiled.sql fun result =>
        match serializeFirstRowMembers result with
        | none => respond (makeError 404 "NotFound" "entity with key not found".toList)
        | some members => respond (makeJson 200 (entityBody state entity members))

/-- The parts of a collection response: the count if it was asked for, and the
link to the next page if there is one. -/
structure CollectionPage where
  context : Str
  count : Option Value := none
  nextLink : Option Str := none
  result : ResultSet

/-- The members before the rows are known. -/
def pageHead (context : Str) (count : Option Value) : Str :=
  "\x7b\"@odata.context\":\"".toList ++ context ++ "\"".toList ++
    match count with
    | none => []
    | some value => ",\"@odata.count\":".toList ++ valueToJson value

def CollectionPage.render (page : CollectionPage) : Str :=
  pageHead page.context page.count ++
    (match page.nextLink with
      | none => []
      | some link => ",\"@odata.nextLink\":\"".toList ++ jsonEscape link ++ "\"".toList) ++
    ",\"value\":[".toList ++ (serializeRows page.result).1 ++ "]\x7d".toList

/-- What `$count=true` contributes: the value printed, and the count of the
result. A missing chunk is printed as 0. -/
def countOf (result : ResultSet) : Except Exn (Value × Int) :=
  match result.firstValue with
  | none => .ok (.integer 0, 0)
  | some value => do
    let count ← value.asInt64
    .ok (value, count)

def currentSkip (query : ODataQuery) : Int := if query.skip < 0 then 0 else query.skip

/-- The response, once it is known how many rows there are in all. -/
def pageWith (state : ServerState) (request : HttpRequest) (entity : EdmEntity) (query : ODataQuery)
    (count : Option Value) (result : ResultSet) (hasMore : Bool) : CollectionPage where
  context := entityContextUri state entity.name false
  count := count
  nextLink := if hasMore then some (nextLink request (currentSkip query + result.rows.length)) else none
  result := result

def respondPage (page : CollectionPage) : Handler := respond (makeJson 200 page.render)

/-- From the rows on. `shown` is the printed count, `known` the count or -1. -/
def finishCollection (state : ServerState) (request : HttpRequest) (entity : EdmEntity) (query : ODataQuery)
    (serverPaged : Bool) (shown : Option Value) (known : Int) (result : ResultSet) : Handler :=
  let head := pageHead (entityContextUri state entity.name false) shown
  let (rowsJson, rows) := serializeRows result
  if 0 ≤ state.maxResponseBytes ∧ state.maxResponseBytes < head.length + rowsJson.length + 16 then
    respond (makeError 413 "ResponseTooLarge" "response exceeds odata_max_response_bytes".toList)
  else if serverPaged = true ∧ (rows : Int) = query.top then
    if known < 0 then
      -- A parse exception cannot happen here: the filter compiled before.
      match compileCount query entity with
      | .error failure => return .error failure
      | .ok compiled =>
        executing compiled.sql fun more =>
          match more.firstValue with
          | none => respondPage (pageWith state request entity query shown result (currentSkip query + rows < known))
          | some value =>
            match value.asInt64 with
            | .error failure => return .error failure
            | .ok count => respondPage (pageWith state request entity query shown result (currentSkip query + rows < count))
    else respondPage (pageWith state request entity query shown result (currentSkip query + rows < known))
  else respondPage (pageWith state request entity query shown result false)

/-- The page size is the default for `$top`; the cap is applied by the compiler. -/
def pagedQuery (state : ServerState) (query : ODataQuery) : ODataQuery × Bool :=
  if 0 < state.pageSize ∧ query.top < 0 then ({ query with top := state.pageSize }, true) else (query, false)

/-- The statements of a collection request: the rows and, if asked for, the count. -/
def compileStatements (query : ODataQuery) (entity : EdmEntity) (maxTop : Int) :
    Except Exn (CompiledQuery × Option CompiledQuery) := do
  let rows ← compileCollection query entity maxTop
  if query.count then
    let count ← compileCount query entity
    .ok (rows, some count)
  else .ok (rows, none)

def collection (state : ServerState) (request : HttpRequest) (entity : EdmEntity) (parsed : ODataQuery) : Handler :=
  let (query, serverPaged) := pagedQuery state parsed
  catching 400 "InvalidQuery" (compileStatements query entity state.maxTop) fun (rows, count) =>
    match count with
    | none => executing rows.sql (finishCollection state request entity query serverPaged none (-1))
    | some count =>
      executing count.sql fun counted =>
        match countOf counted with
        | .error failure => return .error failure
        | .ok (shown, known) => executing rows.sql (finishCollection state request entity query serverPaged (some shown) known)

/-- A request for an exposed entity. -/
def entityRequest (read : BodyReader) (state : ServerState) (catalog : Catalog) (request : HttpRequest) (route : Route)
    (binding : EntityBinding) : Handler :=
  match unsupportedOption request.query with
  | some name => respond (makeError 400 "InvalidQuery" ("unsupported system query option '".toList ++ name ++ "'".toList))
  | none =>
    catching 400 "InvalidQuery" (parseOptions state.maxFilterDepth binding.name request.query) fun query =>
      catching 404 "NotFound" (buildEntity catalog binding) fun built =>
        let entity := applyColumnPolicy built binding
        if writing request then executeWrite read request entity route.keys state.basePath
        else if route.keys ≠ [] then keyLookup state entity query route.keys
        else collection state request entity query

def handleODataRequest (read : BodyReader) (state : ServerState) (catalog : Catalog) (request : HttpRequest) : Handler :=
  match rejected state request with
  | some response => respond response
  | none =>
    let route := parseRoute state request.path
    if writing request ∧ (route.health ∨ route.serviceDoc ∨ route.metadata ∨ route.entity = []) then
      respond (makeError 405 "MethodNotAllowed" "writes require an entity resource".toList)
    else if writing request ∧ route.invalidKey then respond (makeError 400 "InvalidKey" "invalid key route".toList)
    else if route.health then respond (makeJson 200 "\x7b\"status\":\"ok\"\x7d".toList)
    else if state.bindings = [] then
      respond (makeError 404 "NotFound" "no entity sets are exposed (call odata_expose first)".toList)
    else if route.serviceDoc then respond (makeJson 200 (serviceDocument state catalog))
    else if route.metadata then respond (metadataResponse state catalog)
    else if route.entity = [] then respond (makeError 404 "NotFound" "resource not found".toList)
    else match findBinding state.bindings route.entity with
      | none => respond (makeError 404 "NotFound" ("entity set '".toList ++ route.entity ++ "' is not exposed".toList))
      | some binding =>
        if 0 < state.maxConcurrentQueries ∧ state.maxConcurrentQueries ≤ state.activeQueries then
          respond (makeError 503 "ServerBusy" "maximum concurrent OData queries exceeded".toList)
        else entityRequest read state catalog request route binding

end DuckdbOdata
