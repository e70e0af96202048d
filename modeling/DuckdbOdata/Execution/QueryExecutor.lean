import Mathlib.Data.List.Basic

/-! Queries with a deadline (`LocalDuckDBExecutor::Execute` in
`execution/query_executor.cpp`): the thread that executes the queries of one
connection, and the watchdog that each call with a deadline starts. The clock
counts milliseconds. -/

namespace DuckdbOdata

/-- Where the calling thread stands. `direct` runs a query without a deadline. -/
inductive Caller
  | idle
  | direct
  | executing
  | executed
  | locked
  | marked
  | notifying
  | joining
deriving DecidableEq

/-- Where a watchdog stands in `wait_for` and around it. `late` says that the wait
has timed out. A `testing` watchdog is about to evaluate the predicate; a `waking`
one needs the mutex again. -/
inductive Watcher
  | starting
  | testing (late : Bool)
  | waiting
  | waking (late : Bool)
  | interrupting
  | leaving
  | ended
deriving DecidableEq

inductive Holder
  | caller
  | watcher
deriving DecidableEq

/-- The local variables of one call with a deadline, and its watchdog. `called` is
the time of the call; `deadline` is set when the wait begins. -/
structure Watch where
  timeout : Nat
  called : Nat
  watcher : Watcher := .starting
  holder : Option Holder := none
  done : Bool := false
  deadline : Nat := 0
deriving DecidableEq

/-- The calls of `Execute` so far that had a deadline. -/
structure Executions where
  clock : Nat := 0
  caller : Caller := .idle
  watches : List Watch := []
deriving DecidableEq

/-- What the calling thread does has no number: it belongs to the last call. `wake`
is a spurious wakeup, `expire` a wait that reaches its deadline. -/
inductive ExecutorEvent
  | tick
  | call (timeoutMs : Int)
  | finish
  | lock
  | mark
  | unlock
  | notify
  | join
  | acquire (watch : Nat)
  | test (watch : Nat)
  | wake (watch : Nat)
  | expire (watch : Nat)
  | interrupt (watch : Nat)
  | leave (watch : Nat)
deriving DecidableEq

namespace Watch

/-- `notify_one` reaches a watchdog that waits. -/
def notified (watch : Watch) : Watch := { watch with watcher := if watch.watcher = .waiting then .waking false else watch.watcher }

/-- The predicate is evaluated with the mutex held. If it is false the watchdog
waits, which releases the mutex, or the wait is over and it interrupts. -/
def tested (watch : Watch) (late : Bool) : Watch :=
  if watch.done then { watch with watcher := .leaving }
  else if late then { watch with watcher := .interrupting }
  else { watch with watcher := .waiting, holder := none }

end Watch

namespace Executions

def put (state : Executions) (i : Nat) (watch : Watch) : Executions := { state with watches := state.watches.set i watch }

/-- The locals of the call that the calling thread is in. -/
def current (state : Executions) : Nat := state.watches.length - 1

/-- A timeout that is not positive disables the deadline. -/
def called (state : Executions) (timeoutMs : Int) : Executions :=
  if timeoutMs ≤ 0 then { state with caller := .direct }
  else { state with caller := .executing, watches := state.watches ++ [{ timeout := timeoutMs.toNat, called := state.clock }] }

/-- The atomic steps. A query that throws is left out: with a deadline it ends the
process, which destroys the thread object of a watchdog that was not joined. -/
inductive Step : Executions → ExecutorEvent → Executions → Prop
  | tick {state} : Step state .tick { state with clock := state.clock + 1 }
  | call {state timeoutMs} : state.caller = .idle → Step state (.call timeoutMs) (state.called timeoutMs)
  | direct {state} : state.caller = .direct → Step state .finish { state with caller := .idle }
  | finish {state} : state.caller = .executing → Step state .finish { state with caller := .executed }
  | lock {state watch} : state.caller = .executed → state.watches[state.current]? = some watch → watch.holder = none →
      Step state .lock { state.put state.current { watch with holder := some .caller } with caller := .locked }
  | mark {state watch} : state.caller = .locked → state.watches[state.current]? = some watch →
      Step state .mark { state.put state.current { watch with done := true } with caller := .marked }
  | unlock {state watch} : state.caller = .marked → state.watches[state.current]? = some watch →
      Step state .unlock { state.put state.current { watch with holder := none } with caller := .notifying }
  | notify {state watch} : state.caller = .notifying → state.watches[state.current]? = some watch →
      Step state .notify { state.put state.current watch.notified with caller := .joining }
  | join {state watch} : state.caller = .joining → state.watches[state.current]? = some watch → watch.watcher = .ended →
      Step state .join { state with caller := .idle }
  | begin {state i watch} : state.watches[i]? = some watch → watch.watcher = .starting → watch.holder = none →
      Step state (.acquire i)
        (state.put i { watch with watcher := .testing false, holder := some .watcher, deadline := state.clock + watch.timeout })
  | reacquire {state i watch late} : state.watches[i]? = some watch → watch.watcher = .waking late → watch.holder = none →
      Step state (.acquire i) (state.put i { watch with watcher := .testing late, holder := some .watcher })
  | test {state i watch late} : state.watches[i]? = some watch → watch.watcher = .testing late →
      Step state (.test i) (state.put i (watch.tested late))
  | wake {state i watch} : state.watches[i]? = some watch → watch.watcher = .waiting →
      Step state (.wake i) (state.put i { watch with watcher := .waking false })
  | expire {state i watch} : state.watches[i]? = some watch → watch.watcher = .waiting → watch.deadline ≤ state.clock →
      Step state (.expire i) (state.put i { watch with watcher := .waking true })
  | interrupt {state i watch} : state.watches[i]? = some watch → watch.watcher = .interrupting →
      Step state (.interrupt i) (state.put i { watch with watcher := .leaving })
  | leave {state i watch} : state.watches[i]? = some watch → watch.watcher = .leaving →
      Step state (.leave i) (state.put i { watch with watcher := .ended, holder := none })

end Executions

end DuckdbOdata
