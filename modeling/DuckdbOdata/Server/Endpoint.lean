import DuckdbOdata.Server.Routing

/-! Binding a server's socket and reporting where it listens (`Start` in
`server/http_server.cpp` and `StartODataServer` in `server/odata_server.cpp`). -/

namespace DuckdbOdata
open Text

/-- A listening socket with its port, and what `getsockname` says of it. -/
structure Socket where
  port : Nat
  positive : 0 < port
  small : port < 65536
  name : Option Nat
  named : ∀ said, name = some said → said = port

/-- `getaddrinfo`, `bind` and `listen`. The port 0 asks for any free one. -/
structure Network where
  listen : Str → Nat → Option Socket
  bound : ∀ host port socket, listen host port = some socket → port ≠ 0 → socket.port = port

/-- `static_cast<uint16_t>(port)` -/
def narrowPort (port : Int) : Nat := (port % 65536).toNat

/-- `SocketHttpServer::Start`: the socket, and the port that `GetBoundPort`
returns. It is read back for the port 0 only. -/
def startSocket (network : Network) (host : Str) (port : Int) : Option (Socket × Int) :=
  (network.listen host (narrowPort port)).map fun socket =>
    (socket, if port = 0 then (socket.name.map Int.ofNat).getD port else port)

/-- What `odata_serve` reports, and the socket behind it. -/
structure Endpoint where
  host : Str
  port : Int
  listenUrl : Str
  listenUri : Str
  basePath : Str
  startedAddress : Str
  socket : Socket

/-- `0.0.0.0` is not a usable connect target. -/
def usableHost (host : Str) : Str := if host = "0.0.0.0".toList ∨ host = "::".toList then "localhost".toList else host

def listenUrl (host : Str) (port : Int) : Str := "http://".toList ++ usableHost host ++ ":".toList ++ intText port

def startODataServer (network : Network) (running : Bool) (address basePath : Str) : Except Str Endpoint :=
  if running then .error "server is already running".toList
  else match parseAddress address with
    | none => .error ("invalid server address: '".toList ++ address ++ "'".toList)
    | some parsed =>
      match startSocket network parsed.host parsed.port with
      | none => .error ("could not bind to ".toList ++ parsed.host ++ ":".toList ++ intText parsed.port)
      | some (socket, port) => .ok {
          host := parsed.host
          port := port
          listenUrl := listenUrl parsed.host port
          listenUri := "odata:".toList ++ usableHost parsed.host
          basePath := if basePath = [] then parsed.path else basePath
          startedAddress := if address = [] then listenUrl parsed.host port else address
          socket := socket }

end DuckdbOdata
