import DuckdbOdata.Auth.BearerToken
import DuckdbOdata.Foundation.Instances
import DuckdbOdata.Server.Endpoint
import DuckdbOdata.Server.Registry

/-! The SQL functions of the extension and the state of a database instance
(`odata_extension.cpp`, `ODataServerState` and `ODataServerRegistry`). Each call runs
without another one in between. -/

namespace DuckdbOdata
open Text

/-- `config` is what a request reads; the socket is that of `server`. -/
structure ODataServerState where
  config : ServerState := {}
  host : Str := "0.0.0.0".toList
  port : Int := 0
  queryTimeoutMs : Int := 0
  running : Bool := false
  startedAddress : Str := []
  listenUri : Str := []
  listenUrl : Str := []
  socket : Option Socket := none

/-- The arguments of a call. A named parameter may be missing, and it may be NULL. -/
structure ServeArguments where
  address : Option (Option Str) := none
  readOnly : Option (Option Bool) := none
  token : Option (Option Str) := none
  basePath : Option (Option Str) := none

structure ODataServeData where
  address : Str := []
  token : Str := []
  tokenProvided : Bool := false
  readOnly : Bool := true
  basePath : Str := []
  maxTop : Int := 10000
  maxFilterDepth : Int := 64
  maxResponseBytes : Int := 104857600
  queryTimeoutMs : Int := 0
  pageSize : Int := 0
  maxConcurrentQueries : Int := 0

/-- `Value::ToString` of a text. -/
def valueText (value : Option Str) : Str := value.getD "NULL".toList

/-- The settings are those that are set and not NULL. -/
def serveBind (arguments : ServeArguments) (settings : Str → Option Int) : Except Exn ODataServeData :=
  if arguments.readOnly = some none then .error (.duckdb "read_only cannot be NULL".toList)
  else .ok {
    address := (arguments.address.map valueText).getD []
    token := (arguments.token.map valueText).getD []
    tokenProvided := arguments.token.isSome
    readOnly := (arguments.readOnly.bind id).getD true
    basePath := (arguments.basePath.map valueText).getD []
    maxTop := (settings "odata_max_top".toList).getD 10000
    maxFilterDepth := (settings "odata_max_filter_depth".toList).getD 64
    maxResponseBytes := (settings "odata_max_response_bytes".toList).getD 104857600
    queryTimeoutMs := (settings "odata_query_timeout_ms".toList).getD 0
    pageSize := (settings "odata_page_size".toList).getD 0
    maxConcurrentQueries := (settings "odata_max_concurrent_queries".toList).getD 0 }

/-- The state after `StartODataServer`; the bindings stay. -/
def ODataServerState.started (state : ODataServerState) (serve : ODataServeData) (token : Str) (endpoint : Endpoint) :
    ODataServerState where
  config := {
    bindings := state.config.bindings
    basePath := endpoint.basePath
    token := token
    readOnly := serve.readOnly
    maxTop := serve.maxTop
    maxFilterDepth := serve.maxFilterDepth
    maxResponseBytes := serve.maxResponseBytes
    pageSize := serve.pageSize
    maxConcurrentQueries := serve.maxConcurrentQueries
    activeQueries := 0 }
  host := endpoint.host
  port := endpoint.port
  queryTimeoutMs := serve.queryTimeoutMs
  running := true
  startedAddress := endpoint.startedAddress
  listenUri := endpoint.listenUri
  listenUrl := endpoint.listenUrl
  socket := some endpoint.socket

/-- The row that `odata_serve` returns. -/
structure ServeRow where
  listenUri : Str
  listenUrl : Str
  authToken : Str

/-- `GetOrCreate` comes first, and stays when the server does not start. -/
def serveExecute (network : Network) (bytes : Fin 16 → Fin 256) (state : Option ODataServerState) (serve : ODataServeData) :
    Option ODataServerState × Except Exn ServeRow :=
  let token := if serve.tokenProvided then serve.token else generateAuthToken bytes
  let before := state.getD {}
  match startODataServer network before.running serve.address serve.basePath with
  | .error error => (some before, .error (.duckdb ("odata_serve failed: ".toList ++ error)))
  | .ok endpoint =>
    let after := before.started serve token endpoint
    (some after, .ok ⟨after.listenUri, after.listenUrl, after.config.token⟩)

/-- `StopODataServer`, once the threads of the server have ended. -/
def stopODataServer (state : ODataServerState) : ODataServerState := { state with socket := none, running := false }

/-- The row that `odata_status` returns. -/
structure StatusRow where
  running : Bool
  address : Str
  basePath : Str
  tokenRequired : Bool
  exposedEntities : Nat
deriving DecidableEq

def statusExecute : Option ODataServerState → StatusRow
  | none => ⟨false, [], "/odata".toList, false, 0⟩
  | some state =>
    ⟨state.running, if state.listenUrl ≠ [] then state.listenUrl else state.startedAddress, state.config.basePath,
      decide (state.config.token ≠ []), state.config.bindings.length⟩

/-- `odata_expose_schema` fetches the state before it looks for the tables. -/
def Command.fetchesFirst : Command → Bool
  | .exposeSchema arg => decide (arg ≠ []) && match parseQualifiedSchema arg with
    | .ok _ => true
    | .error _ => false
  | .expose _ _ | .entity _ _ => false

def bindingExecute (session : Session) (state : Option ODataServerState) (command : Command) :
    Option ODataServerState × Except Exn (List (Str × Str)) :=
  let before := state.getD {}
  match command.execute session before.config.bindings with
  | .error failure => (if command.fetchesFirst then some before else state, .error failure)
  | .ok (bindings, rows) => (some { before with config := { before.config with bindings } }, .ok rows)

/-- A call with what it finds: the settings, the network, the random bytes and the
catalog. -/
inductive ExtensionCall
  | serve (arguments : ServeArguments) (settings : Str → Option Int) (network : Network) (bytes : Fin 16 → Fin 256)
  | stop
  | status
  | bind (session : Session) (command : Command)

inductive Report
  | served (row : ServeRow)
  | stopped
  | status (row : StatusRow)
  | bound (rows : List (Str × Str))
  | failed (failure : Exn)

def ExtensionCall.execute (state : Option ODataServerState) : ExtensionCall → Option ODataServerState × Report
  | .serve arguments settings network bytes =>
    match serveBind arguments settings with
    | .error failure => (state, .failed failure)
    | .ok data =>
      match serveExecute network bytes state data with
      | (after, .ok row) => (after, .served row)
      | (after, .error failure) => (after, .failed failure)
  | .stop => (state.map stopODataServer, .stopped)
  | .status => (state, .status (statusExecute state))
  | .bind session command =>
    match bindingExecute session state command with
    | (after, .ok rows) => (after, .bound rows)
    | (after, .error failure) => (after, .failed failure)

/-- What happens to the database instances of a process. An instance has an address,
and a new one may have that of an instance that was destroyed. -/
inductive InstanceEvent (Address : Type)
  | create (address : Address)
  | call (address : Address) (call : ExtensionCall)
  | destroy (address : Address)

def InstanceEvent.call? {Address : Type} : InstanceEvent Address → Option (Address × ExtensionCall)
  | .call address asked => some (address, asked)
  | .create _ | .destroy _ => none

/-- The registry: one state for the address of an instance, made by the first call
that needs one and never removed. It hears of no destruction. -/
def runCalls {Address : Type} [DecidableEq Address] (events : List (InstanceEvent Address)) :
    (Address → Option ODataServerState) × List (Address × Report) :=
  Instances.run ExtensionCall.execute (fun _ => none) (events.filterMap InstanceEvent.call?)

end DuckdbOdata
