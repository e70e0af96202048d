import DuckdbOdata.Common.StdLib
import DuckdbOdata.Foundation.TextSearch
import DuckdbOdata.Metadata.MetadataGenerator
import DuckdbOdata.Server.HttpRequest

/-! Responses, routes and request policies of the server
(`server/odata_server.cpp`, the functions below `HandleODataRequest`). -/

namespace DuckdbOdata
open Text

/-- The configuration and the exposed entities, as one request reads them.
`activeQueries` counts the queries already running. -/
structure ServerState where
  bindings : List EntityBinding := []
  basePath : Str := "/odata".toList
  token : Str := []
  readOnly : Bool := true
  maxTop : Int := 10000
  maxFilterDepth : Int := 64
  maxResponseBytes : Int := 104857600
  pageSize : Int := 0
  maxConcurrentQueries : Int := 0
  activeQueries : Int := 0

def makeError (status : Nat) (code : String) (message : Str) : HttpResponse where
  status := status
  headers := [("Content-Type".toList, "application/json".toList)]
  body := "\x7b\"error\":\x7b\"code\":\"".toList ++ code.toList ++ "\",\"message\":\"".toList ++ jsonEscape message ++ "\"\x7d\x7d".toList

def makeJson (status : Nat) (body : Str) : HttpResponse where
  status := status
  headers := [("Content-Type".toList, "application/json;odata.metadata=minimal;charset=utf-8".toList),
    ("OData-Version".toList, "4.0".toList)]
  body := body

def entityContextUri (state : ServerState) (entityName : Str) (singleEntity : Bool) : Str :=
  state.basePath ++ "/$metadata#".toList ++ entityName ++ if singleEntity then "/$entity".toList else []

/-- A served address; the port 0 stands for any free one. -/
structure Address where
  host : Str := "0.0.0.0".toList
  port : Int := 8080
  path : Str := "/odata".toList
deriving DecidableEq

/-- The name and the port of `host[:port]`. In an address with a bracket no colon
separates a port. -/
def splitPort (hostport : Str) : Option (Str × Int) :=
  match cut ':' hostport.reverse with
  | none => some (hostport, 8080)
  | some (port, name) =>
    if ']' ∈ hostport then some (hostport, 8080)
    else match stoi port.reverse with
      | .ok port => some (name.reverse, port)
      | .error _ => none

def parseAddress (address : Str) : Option Address :=
  if address = [] then some { host := "localhost".toList, port := 0 }
  else
    let body := ((cutText "://".toList address).map (·.2)).getD address
    let (hostport, rest) := (cut '/' body).getD (body, [])
    (splitPort hostport).map fun (name, port) => {
      host := if name = [] then "0.0.0.0".toList else name
      port := port
      path := if rest = [] then "/odata".toList else '/' :: rest }

/-- The base path with which `StartODataServer` serves; the `base_path` argument
overrides that of the address. -/
def servedBasePath (address basePath : Str) : Option Str :=
  (parseAddress address).map fun parsed => if basePath = [] then parsed.path else basePath

structure Route where
  serviceDoc : Bool := false
  metadata : Bool := false
  health : Bool := false
  invalidKey : Bool := false
  entity : Str := []
  keys : List Str := []
  rest : Str := []
deriving DecidableEq

/-- The text up to the closing parenthesis outside quotes, and the rest. A quote
that follows one inside quotes is skipped with it. -/
def closeParen : Bool → Str → Option (Str × Str)
  | _, [] => none
  | quoted, [c] => if c = ')' ∧ quoted = false then some ([], []) else none
  | quoted, c :: d :: rest =>
    if c = '\'' then
      if quoted ∧ d = '\'' then (closeParen quoted rest).map fun (key, after) => (c :: d :: key, after)
      else (closeParen (!quoted) (d :: rest)).map fun (key, after) => (c :: key, after)
    else if quoted = false ∧ c = ')' then some ([], d :: rest)
    else (closeParen quoted (d :: rest)).map fun (key, after) => (c :: key, after)

/-- The entity name and the key of the path below the base path. -/
def resourceRoute (remaining : Str) : Route :=
  let entity := remaining.takeWhile fun c => c ≠ '(' && c ≠ '/'
  match remaining.dropWhile fun c => c ≠ '(' && c ≠ '/' with
  | [] => { entity }
  | c :: rest =>
    if c = '(' then
      match closeParen false rest with
      | none => { entity, invalidKey := true }
      | some (keyPart, after) =>
        { entity, keys := if keyPart = [] then [] else [trim keyPart], rest := after, invalidKey := keyPart = [] || after ≠ [] }
    else { entity, keys := if rest = [] then [] else [rest], rest }

/-- The path below the base path; `none` if it is not under it. -/
def belowBase (basePath path : Str) : Option Str :=
  if basePath = [] ∨ basePath = "/".toList then some path
  else if (toLower basePath).isPrefixOf (toLower path) then
    match path.drop basePath.length with
    | [] => some "/".toList
    | c :: rest => if c = '/' then some (c :: rest) else none
  else none

def parseRoute (state : ServerState) (fullPath : Str) : Route :=
  if fullPath = "/health".toList then { health := true }
  else if fullPath = "/".toList then { serviceDoc := true }
  else match belowBase state.basePath fullPath with
    | none => {}
    | some path =>
      if path = "/".toList then { serviceDoc := true }
      else if path = "/$metadata".toList then { metadata := true }
      else match path with
        | '/' :: remaining => resourceRoute remaining
        | _ => {}

def isSystemOption (name : Str) : Bool :=
  oneOf name ["$select", "$filter", "$orderby", "$top", "$skip", "$count", "$format", "$skiptoken"]

structure DepthScan where
  depth : Int := 0
  quote : Bool := false
deriving DecidableEq

/-- One round of the loop over a character and the one that follows it; `none`
is the early `return false`. -/
def depthStep (maxDepth : Int) (scan : DepthScan) (c : Char) (next : Option Char) : Option DepthScan :=
  if c = '\'' ∧ next ≠ some '\'' then some { scan with quote := !scan.quote }
  else if scan.quote = false ∧ c = '(' then
    if maxDepth < scan.depth + 1 then none else some { scan with depth := scan.depth + 1 }
  else if scan.quote = false ∧ c = ')' ∧ 0 < scan.depth then some { scan with depth := scan.depth - 1 }
  else some scan

def depthLoop (maxDepth : Int) : DepthScan → Str → Bool
  | _, [] => true
  | scan, c :: rest =>
    match depthStep maxDepth scan c rest.head? with
    | none => false
    | some next => depthLoop maxDepth next rest

def filterWithinDepth (filter : Str) (maxDepth : Int) : Bool := if maxDepth < 0 then true else depthLoop maxDepth {} filter

/-- The properties on the allow-list; an empty list allows all. -/
def applyColumnPolicy (entity : EdmEntity) (binding : EntityBinding) : EdmEntity :=
  if binding.configuredColumns = [] then entity
  else
    let allowed := entity.properties.filter fun prop => binding.configuredColumns.any fun column => decide (sameName prop.name column)
    { entity with properties := allowed, hasKey := allowed.any (·.isKey) }

def nextLink (request : HttpRequest) (nextSkip : Int) : Str :=
  request.path ++ "?".toList ++ request.rawQuery ++ (if request.rawQuery = [] then [] else "&".toList) ++ "$skip=".toList ++
    intText nextSkip

end DuckdbOdata
