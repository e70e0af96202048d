import DuckdbOdata.Server.HttpServer
import DuckdbOdata.Server.ODataServer

/-! Starting and stopping a server among its threads (`StartODataServer`,
`StopODataServer`, and `Start`, `AcceptLoop`, `Stop` of `SocketHttpServer`). The
accept thread is joined by `odata_stop`; the thread of a connection is detached. -/

namespace DuckdbOdata
open Text

/-- Where the accept thread stands in `AcceptLoop`: before the test of
`stop_requested`, in `accept`, with a new connection, or at its end. -/
inductive Acceptor
  | testing
  | accepting
  | accepted
  | ended
deriving DecidableEq

/-- Where the thread of a connection stands in `HandleConnection`. A `checked`
thread has passed the authorization and method check of the handler; `handling`
keeps what is left of the handler. -/
inductive Connection
  | reading
  | called (request : HttpRequest)
  | checked (token : Str) (readOnly : Bool) (request : HttpRequest)
  | handling (program : Handler)
  | sending
  | finished

/-- `running` says that there is a server; `stopRequested`, `looping` (its
`running`), `listening` and `acceptor` are the server's. `stopping` says that
`odata_stop` holds the lock while it waits for the accept thread. The first
`destroyed` connections were accepted by a server that no longer exists. -/
structure Lifecycle where
  config : ServerState := {}
  running : Bool := false
  stopRequested : Bool := false
  looping : Bool := false
  listening : Bool := false
  acceptor : Option Acceptor := none
  stopping : Bool := false
  connections : List Connection := []
  destroyed : Nat := 0

inductive LifecycleEvent
  | test
  | connect
  | acceptFails
  | spawn
  | receive (thread : Nat) (segments : List Segment)
  | dangle (thread : Nat) (segments : List Segment)
  | check (thread : Nat)
  | snapshot (thread : Nat) (catalog : Catalog) (activeQueries : Int)
  | call (thread : Nat) (op : DbCall) (answer : op.Answer)
  | respond (thread : Nat)
  | send (thread : Nat)
  | configure (bindings : List EntityBinding)
  | serve (config : ServerState)
  | stopNothing
  | requestStop
  | closeListener
  | join

namespace Lifecycle

def enter (state : Lifecycle) (thread : Nat) (connection : Connection) : Lifecycle :=
  { state with connections := state.connections.set thread connection }

/-- The accept thread goes on, or leaves its loop if a stop was requested. -/
def loop (state : Lifecycle) (next : Acceptor) : Lifecycle :=
  if state.stopRequested then { state with acceptor := some .ended, looping := false }
  else { state with acceptor := some next }

/-- A request whose answer needs no binding, and so no second look at the state. -/
def unbound (config : ServerState) (request : HttpRequest) : Prop :=
  let route := parseRoute config request.path
  (writing request ∧ (route.health ∨ route.serviceDoc ∨ route.metadata ∨ route.entity = [] ∨ route.invalidKey)) ∨ route.health

def received : Received → Connection
  | .rejected _ => .sending
  | .handled request => .called request

/-- After the first critical section of the handler. -/
def afterCheck (config : ServerState) (request : HttpRequest) : Connection :=
  match rejected config request with
  | some _ => .sending
  | none => .checked config.token config.readOnly request

/-- The handler from its second critical section on. Token and method were
checked in the first one. -/
def afterSnapshot (read : BodyReader) (config : ServerState) (token : Str) (readOnly : Bool) (request : HttpRequest)
    (catalog : Catalog) (activeQueries : Int) : Connection :=
  .handling (handleODataRequest read { config with token, readOnly, activeQueries } catalog request)

/-- `Stop` returns at once unless the loop runs or a stop was requested. -/
def stoppable (state : Lifecycle) : Bool := state.running && (state.looping || state.stopRequested)

/-- The atomic steps. What takes `state.mu` is not possible while `odata_stop`
holds it; a connection thread takes it twice. The handler that a connection thread
calls is a member of its server: once `StopODataServer` has destroyed the server, the
call is undefined, and any state may follow. -/
inductive Step (read : BodyReader) : Lifecycle → LifecycleEvent → Lifecycle → Prop
  | test {state} : state.acceptor = some .testing → Step read state .test (state.loop .accepting)
  | connect {state} : state.acceptor = some .accepting → state.listening →
      Step read state .connect { state with acceptor := some .accepted }
  | acceptFails {state} : state.acceptor = some .accepting → Step read state .acceptFails (state.loop .testing)
  | spawn {state} : state.acceptor = some .accepted →
      Step read state .spawn { state with acceptor := some .testing, connections := state.connections ++ [.reading] }
  | receive {state thread segments} : state.connections[thread]? = some .reading →
      (∀ request, DuckdbOdata.receive segments = .handled request → state.destroyed ≤ thread) →
      Step read state (.receive thread segments) (state.enter thread (received (DuckdbOdata.receive segments)))
  | dangle {state thread segments request after} : state.connections[thread]? = some .reading →
      DuckdbOdata.receive segments = .handled request → thread < state.destroyed → Step read state (.dangle thread segments) after
  | check {state thread request} : state.connections[thread]? = some (.called request) → state.stopping = false →
      Step read state (.check thread) (state.enter thread (afterCheck state.config request))
  | snapshot {state thread token readOnly request catalog activeQueries} :
      state.connections[thread]? = some (.checked token readOnly request) →
      state.stopping = false ∨ unbound state.config request →
      Step read state (.snapshot thread catalog activeQueries)
        (state.enter thread (afterSnapshot read state.config token readOnly request catalog activeQueries))
  | call {state thread op next answer} : state.connections[thread]? = some (.handling (.ask op next)) →
      Step read state (.call thread op answer) (state.enter thread (.handling (next answer)))
  | respond {state thread result} : state.connections[thread]? = some (.handling (.done result)) →
      Step read state (.respond thread) (state.enter thread .sending)
  | send {state thread} : state.connections[thread]? = some .sending →
      Step read state (.send thread) (state.enter thread .finished)
  | configure {state bindings} : state.stopping = false →
      Step read state (.configure bindings) { state with config := { state.config with bindings } }
  | serve {state config} : state.stopping = false → state.running = false →
      Step read state (.serve config)
        { state with
          config := { config with bindings := state.config.bindings, activeQueries := 0 }
          running := true, stopRequested := false, looping := true, listening := true, acceptor := some .testing }
  | stopNothing {state} : state.stopping = false → state.stoppable = false →
      Step read state .stopNothing
        { state with running := false, destroyed := if state.running then state.connections.length else state.destroyed }
  | requestStop {state} : state.stopping = false → state.stoppable →
      Step read state .requestStop { state with stopRequested := true, stopping := true }
  | closeListener {state} : state.stopping → Step read state .closeListener { state with listening := false }
  | join {state} : state.stopping → state.listening = false → state.acceptor = some .ended →
      Step read state .join
        { state with
          acceptor := none, looping := false, running := false, stopping := false
          destroyed := state.connections.length }

end Lifecycle

/-- `StopODataServer` returns with this step. -/
def LifecycleEvent.returnsStop : LifecycleEvent → Prop
  | .stopNothing | .join => True
  | _ => False

/-- The connection for which the request handler is called or executes with this step. -/
def LifecycleEvent.handlerOf : LifecycleEvent → Option Nat
  | .receive thread segments =>
    match DuckdbOdata.receive segments with
    | .rejected _ => none
    | .handled _ => some thread
  | .dangle thread _ | .check thread | .snapshot thread _ _ | .call thread _ _ | .respond thread => some thread
  | _ => none

/-- The connection whose write is committed with this step. -/
def LifecycleEvent.committerOf : LifecycleEvent → Option Nat
  | .call thread (.query sql) (.ok (.ok _)) => if sql = "COMMIT".toList then some thread else none
  | _ => none

end DuckdbOdata
