import DuckdbOdata.Server.ODataServer

/-! Request threads and the counter they share. A thread is detached, so it may
outlive the server that accepted it; `odata_stop` and `odata_serve` hold the lock
throughout, the counter is atomic and not under it. -/

namespace DuckdbOdata

/-- Where the thread of a request stands in `HandleODataRequest`. `counted` keeps
what its `fetch_add` returned; an `admitted` thread has its `QuerySlot`. -/
inductive Phase
  | arrived
  | counted (active : Int)
  | admitted
  | refused
  | finished
deriving DecidableEq

/-- The shared state, and every thread so far. -/
structure RequestThreads where
  activeQueries : Int := 0
  maxConcurrentQueries : Int := 0
  running : Bool := false
  handlers : List Phase := []
deriving DecidableEq

/-- `answer` is a response before the counter is reached; `fetchSub` is that of a
rejection or of the destructor of `QuerySlot`. -/
inductive ThreadEvent
  | accept
  | answer (handler : Nat)
  | fetchAdd (handler : Nat)
  | compare (handler : Nat)
  | fetchSub (handler : Nat)
  | stop
  | serve (maxConcurrentQueries : Int)
deriving DecidableEq

def overLimit (maxConcurrentQueries active : Int) : Bool := 0 < maxConcurrentQueries && maxConcurrentQueries ≤ active

namespace RequestThreads

def enter (threads : RequestThreads) (handler : Nat) (phase : Phase) : RequestThreads :=
  { threads with handlers := threads.handlers.set handler phase }

/-- One atomic step; `none` if the event is not possible in this state. -/
def step (threads : RequestThreads) : ThreadEvent → Option RequestThreads
  | .accept => if threads.running then some { threads with handlers := threads.handlers ++ [.arrived] } else none
  | .answer handler =>
    match threads.handlers[handler]? with
    | some .arrived => some (threads.enter handler .finished)
    | _ => none
  | .fetchAdd handler =>
    match threads.handlers[handler]? with
    | some .arrived =>
      some { threads.enter handler (.counted threads.activeQueries) with activeQueries := threads.activeQueries + 1 }
    | _ => none
  | .compare handler =>
    match threads.handlers[handler]? with
    | some (.counted active) =>
      some (threads.enter handler (if overLimit threads.maxConcurrentQueries active then .refused else .admitted))
    | _ => none
  | .fetchSub handler =>
    match threads.handlers[handler]? with
    | some .admitted | some .refused =>
      some { threads.enter handler .finished with activeQueries := threads.activeQueries - 1 }
    | _ => none
  | .stop => some { threads with running := false }
  | .serve limit =>
    if threads.running then none
    else some { threads with running := true, maxConcurrentQueries := limit, activeQueries := 0 }

end RequestThreads

end DuckdbOdata
