import DuckdbOdata.Execution.QueryExecutor
import DuckdbOdata.Foundation.Run

/-! The watchdogs of queries with a deadline. A watchdog is joined before its call
returns, so an interrupt reaches the query of its own call only; and no wakeup is
lost, so a call that has its result never waits for the deadline. -/

namespace DuckdbOdata.Watchdogs
open Executions

/-- The calling thread is in a call with a deadline. -/
def InCall (caller : Caller) : Prop := caller ≠ .idle ∧ caller ≠ .direct

/-- What the two threads of a call agree on. -/
structure Agree (clock : Nat) (caller : Caller) (watch : Watch) : Prop where
  inCall : InCall caller
  callerHolds : watch.holder = some .caller ↔ caller = .locked ∨ caller = .marked
  watcherHolds : watch.holder = some .watcher ↔
    (∃ late, watch.watcher = .testing late) ∨ watch.watcher = .interrupting ∨ watch.watcher = .leaving
  done : watch.done = true ↔ caller = .marked ∨ caller = .notifying ∨ caller = .joining
  called : watch.called ≤ clock
  deadline : watch.watcher ≠ .starting → watch.called + watch.timeout ≤ watch.deadline
  late : watch.watcher = .waking true ∨ watch.watcher = .testing true ∨ watch.watcher = .interrupting → watch.deadline ≤ clock
  fresh : watch.watcher = .interrupting → watch.done = false
  woken : caller = .joining → watch.watcher ≠ .waiting

/-- Neither thread is where it holds the mutex. -/
theorem Agree.free {clock : Nat} {caller : Caller} {watch : Watch} (agree : Agree clock caller watch)
    (outside : ¬ (caller = .locked ∨ caller = .marked))
    (apart : ¬ ((∃ late, watch.watcher = .testing late) ∨ watch.watcher = .interrupting ∨ watch.watcher = .leaving)) :
    watch.holder = none := by
  cases holder : watch.holder with
  | none => rfl
  | some party =>
    cases party with
    | caller => exact absurd (agree.callerHolds.mp holder) outside
    | watcher => exact absurd (agree.watcherHolds.mp holder) apart

/-- No watchdog is left of the calls before the current one. -/
inductive Sound (state : Executions) : Prop
  | quiet : state.caller = .idle ∨ state.caller = .direct → (∀ watch ∈ state.watches, watch.watcher = .ended) → Sound state
  | active (earlier : List Watch) (watch : Watch) : state.watches = earlier ++ [watch] → (∀ old ∈ earlier, old.watcher = .ended) →
      Agree state.clock state.caller watch → Sound state

variable {state after : Executions} {i : Nat} {watch : Watch}

private theorem put_last {earlier : List Watch} (whole : state.watches = earlier ++ [watch]) (here : i = earlier.length) (new : Watch) :
    (state.put i new).watches = earlier ++ [new] := by
  change state.watches.set i new = earlier ++ [new]
  rw [whole, here, List.set_append_right _ _ (Nat.le_refl _), Nat.sub_self]
  rfl

private theorem current_found {earlier : List Watch} (whole : state.watches = earlier ++ [watch]) :
    state.watches[state.current]? = some watch := by
  have here : state.current = earlier.length := by
    simp [Executions.current, whole]
  rw [whole, here, List.getElem?_append_right (Nat.le_refl _), Nat.sub_self]
  rfl

/-- A watchdog that has not ended is the last one, and its call goes on. -/
theorem Sound.last (sound : Sound state) (found : state.watches[i]? = some watch) (live : watch.watcher ≠ .ended) :
    ∃ earlier, state.watches = earlier ++ [watch] ∧ i = earlier.length ∧ (∀ old ∈ earlier, old.watcher = .ended) ∧
      Agree state.clock state.caller watch := by
  cases sound with
  | quiet none ended => exact absurd (ended watch (List.mem_of_getElem? found)) live
  | active earlier last whole ended agree =>
    rw [whole] at found
    rcases Nat.lt_trichotomy i earlier.length with before | rfl | beyond
    · rw [List.getElem?_append_left before] at found
      exact absurd (ended watch (List.mem_of_getElem? found)) live
    · rw [List.getElem?_append_right (Nat.le_refl _), Nat.sub_self] at found
      cases found
      exact ⟨earlier, whole, rfl, ended, agree⟩
    · rw [List.getElem?_eq_none (by simp; omega)] at found
      cases found

/-- The current locals of a call. -/
theorem Sound.inside (sound : Sound state) (inCall : InCall state.caller) (found : state.watches[state.current]? = some watch) :
    ∃ earlier, state.watches = earlier ++ [watch] ∧ state.current = earlier.length ∧ (∀ old ∈ earlier, old.watcher = .ended) ∧
      Agree state.clock state.caller watch := by
  cases sound with
  | quiet none _ => exact (none.elim inCall.1 inCall.2).elim
  | active earlier last whole ended agree =>
    have here : state.current = earlier.length := by
      simp [Executions.current, whole]
    rw [whole, here, List.getElem?_append_right (Nat.le_refl _), Nat.sub_self] at found
    cases found
    exact ⟨earlier, whole, here, ended, agree⟩

private theorem sound_put {earlier : List Watch} (whole : state.watches = earlier ++ [watch]) (here : i = earlier.length)
    (ended : ∀ old ∈ earlier, old.watcher = .ended) {caller : Caller} {new : Watch} (agree : Agree state.clock caller new) :
    Sound { state.put i new with caller := caller } :=
  .active earlier new (put_last whole here new) ended agree

private theorem agree_notified {clock : Nat} (agree : Agree clock .notifying watch) : Agree clock .joining watch.notified := by
  obtain ⟨_, callerHolds, watcherHolds, done, called, deadline, late, fresh, _⟩ := agree
  unfold Watch.notified
  split
  next waiting =>
    exact ⟨⟨nofun, nofun⟩, by simpa using callerHolds, by simpa [waiting] using watcherHolds, by simpa using done, called,
      fun _ => deadline (by simp [waiting]), by simp, by simp, by simp⟩
  next other =>
    exact ⟨⟨nofun, nofun⟩, by simpa using callerHolds, watcherHolds, by simpa using done, called, deadline, late, fresh, fun _ => other⟩

private theorem agree_tested {clock : Nat} {caller : Caller} {late : Bool} (agree : Agree clock caller watch)
    (testing : watch.watcher = .testing late) : Agree clock caller (watch.tested late) := by
  obtain ⟨inCall, callerHolds, watcherHolds, done, called, deadline, expired, fresh, woken⟩ := agree
  have holds := watcherHolds.mpr (.inl ⟨late, testing⟩)
  have begun := deadline (by simp [testing])
  unfold Watch.tested
  split
  next finished => exact ⟨inCall, callerHolds, by simp [holds], done, called, fun _ => begun, by simp, by simp, by simp⟩
  next unfinished =>
    split
    next expiring =>
      refine ⟨inCall, callerHolds, by simp [holds], done, called, fun _ => begun, fun _ => ?_, fun _ => by simpa using unfinished, by simp⟩
      exact expired (.inr (.inl (by rw [testing, expiring])))
    next =>
      have free : ¬ (caller = .locked ∨ caller = .marked) := by
        rw [← callerHolds, holds]
        simp
      refine ⟨inCall, by simpa using free, by simp, done, called, fun _ => begun, by simp, by simp, fun joining => ?_⟩
      exact absurd (done.mpr (.inr (.inr joining))) unfinished

theorem step_sound {event : ExecutorEvent} (stepped : Step state event after) (sound : Sound state) : Sound after := by
  cases stepped with
  | tick =>
    cases sound with
    | quiet none ended => exact .quiet none ended
    | active earlier watch whole ended agree =>
      exact .active earlier watch whole ended { agree with
        called := Nat.le_succ_of_le agree.called
        late := fun expired => Nat.le_succ_of_le (agree.late expired) }
  | call idle =>
    cases sound with
    | active earlier watch whole ended agree => exact absurd idle agree.inCall.1
    | quiet none ended =>
      unfold Executions.called
      split
      next => exact .quiet (.inr rfl) ended
      next => exact .active _ _ rfl ended ⟨⟨nofun, nofun⟩, by simp, by simp, by simp, Nat.le_refl _, by simp, by simp, by simp, by simp⟩
  | direct direct =>
    cases sound with
    | active earlier watch whole ended agree => exact absurd direct agree.inCall.2
    | quiet none ended => exact .quiet (.inl rfl) ended
  | finish executing =>
    cases sound with
    | quiet none => simp [executing] at none
    | active earlier watch whole ended agree =>
      rw [executing] at agree
      exact .active earlier watch whole ended ⟨⟨nofun, nofun⟩, by simpa using agree.callerHolds, agree.watcherHolds,
        by simpa using agree.done, agree.called, agree.deadline, agree.late, agree.fresh, by simp⟩
  | lock executed found free =>
    obtain ⟨earlier, whole, here, ended, agree⟩ := sound.inside (by rw [executed]; exact ⟨nofun, nofun⟩) found
    rw [executed] at agree
    have other := agree.watcherHolds
    rw [free] at other
    exact sound_put whole here ended ⟨⟨nofun, nofun⟩, by simp, by simpa using other, by simpa using agree.done, agree.called,
      agree.deadline, agree.late, agree.fresh, by simp⟩
  | mark locked found =>
    obtain ⟨earlier, whole, here, ended, agree⟩ := sound.inside (by rw [locked]; exact ⟨nofun, nofun⟩) found
    rw [locked] at agree
    have holds := agree.callerHolds.mpr (.inl rfl)
    have other := agree.watcherHolds
    rw [holds] at other
    simp only [Option.some.injEq, reduceCtorEq, false_iff, not_or] at other
    exact sound_put whole here ended ⟨⟨nofun, nofun⟩, by simp [holds], by simpa [holds] using other, by simp, agree.called,
      agree.deadline, agree.late, fun interrupting => absurd interrupting other.2.1, by simp⟩
  | unlock marked found =>
    obtain ⟨earlier, whole, here, ended, agree⟩ := sound.inside (by rw [marked]; exact ⟨nofun, nofun⟩) found
    rw [marked] at agree
    have holds := agree.callerHolds.mpr (.inr rfl)
    have other := agree.watcherHolds
    rw [holds] at other
    exact sound_put whole here ended ⟨⟨nofun, nofun⟩, by simp, by simpa using other, by simpa using agree.done, agree.called,
      agree.deadline, agree.late, agree.fresh, by simp⟩
  | notify notifying found =>
    obtain ⟨earlier, whole, here, ended, agree⟩ := sound.inside (by rw [notifying]; exact ⟨nofun, nofun⟩) found
    rw [notifying] at agree
    exact sound_put whole here ended (agree_notified agree)
  | join joining found finished =>
    obtain ⟨earlier, whole, here, ended, agree⟩ := sound.inside (by rw [joining]; exact ⟨nofun, nofun⟩) found
    refine .quiet (.inl rfl) ?_
    intro old member
    rw [whole] at member
    rcases List.mem_append.mp member with inside | last
    · exact ended old inside
    · rw [List.mem_singleton.mp last]
      exact finished
  | begin found starting free =>
    obtain ⟨earlier, whole, here, ended, agree⟩ := sound.last found (by rw [starting]; decide)
    have other := agree.callerHolds
    rw [free] at other
    refine sound_put whole here ended ⟨agree.inCall, by simpa using other, by simp, agree.done, agree.called, fun _ => ?_,
      by simp, by simp, by simp⟩
    exact Nat.add_le_add_right agree.called _
  | reacquire found waking free =>
    obtain ⟨earlier, whole, here, ended, agree⟩ := sound.last found (by rw [waking]; nofun)
    have other := agree.callerHolds
    rw [free] at other
    refine sound_put whole here ended ⟨agree.inCall, by simpa using other, by simp, agree.done, agree.called,
      fun _ => agree.deadline (by rw [waking]; nofun), fun expired => agree.late (.inl ?_), by simp, by simp⟩
    simpa [waking] using expired
  | test found testing =>
    obtain ⟨earlier, whole, here, ended, agree⟩ := sound.last found (by rw [testing]; nofun)
    exact sound_put whole here ended (agree_tested agree testing)
  | wake found waiting =>
    obtain ⟨earlier, whole, here, ended, agree⟩ := sound.last found (by rw [waiting]; nofun)
    have other := agree.watcherHolds
    rw [waiting] at other
    exact sound_put whole here ended ⟨agree.inCall, agree.callerHolds, by simpa using other, agree.done, agree.called,
      fun _ => agree.deadline (by rw [waiting]; nofun), by simp, by simp, by simp⟩
  | expire found waiting reached =>
    obtain ⟨earlier, whole, here, ended, agree⟩ := sound.last found (by rw [waiting]; nofun)
    have other := agree.watcherHolds
    rw [waiting] at other
    exact sound_put whole here ended ⟨agree.inCall, agree.callerHolds, by simpa using other, agree.done, agree.called,
      fun _ => agree.deadline (by rw [waiting]; nofun), fun _ => reached, by simp, by simp⟩
  | interrupt found interrupting =>
    obtain ⟨earlier, whole, here, ended, agree⟩ := sound.last found (by rw [interrupting]; nofun)
    have other := agree.watcherHolds
    rw [interrupting] at other
    exact sound_put whole here ended ⟨agree.inCall, agree.callerHolds, by simpa using other, agree.done, agree.called,
      fun _ => agree.deadline (by rw [interrupting]; nofun), by simp, by simp, by simp⟩
  | leave found leaving =>
    obtain ⟨earlier, whole, here, ended, agree⟩ := sound.last found (by rw [leaving]; nofun)
    have holds := agree.watcherHolds.mpr (.inr (.inr leaving))
    have other := agree.callerHolds
    rw [holds] at other
    exact sound_put whole here ended ⟨agree.inCall, by simpa using other, by simp, agree.done, agree.called,
      fun _ => agree.deadline (by rw [leaving]; nofun), by simp, by simp, by simp⟩

theorem run_sound {events : List ExecutorEvent} (run : Run Step {} events state) : Sound state :=
  run.invariant Sound (.quiet (.inl rfl) nofun) fun _ _ _ _ stepped sound => step_sound stepped sound

private theorem put_get (found : state.watches[i]? = some watch) (new : Watch) (j : Nat) :
    (state.put i new).watches[j]? = if i = j then some new else state.watches[j]? := by
  change (state.watches.set i new)[j]? = _
  rw [List.getElem?_set]
  split
  next same =>
    have inside := (List.getElem?_eq_some_iff.mp found).1
    rw [if_pos (same ▸ inside)]
  next => rfl

/-- The locals with this number have what is asked for. -/
def Keeps (holds : Watch → Prop) (i : Nat) (state : Executions) : Prop := ∃ watch, state.watches[i]? = some watch ∧ holds watch

private theorem Keeps.put {holds : Watch → Prop} {j : Nat} (keeps : Keeps holds j state) (found : state.watches[i]? = some watch)
    {new : Watch} (kept : holds watch → holds new) : Keeps holds j (state.put i new) := by
  obtain ⟨other, known, has⟩ := keeps
  unfold Keeps
  rw [put_get found]
  split
  next same =>
    subst same
    cases found.symm.trans known
    exact ⟨new, rfl, kept has⟩
  next => exact ⟨other, known, has⟩

private theorem Keeps.called {holds : Watch → Prop} {j : Nat} (keeps : Keeps holds j state) (timeoutMs : Int) :
    Keeps holds j (state.called timeoutMs) := by
  obtain ⟨other, known, has⟩ := keeps
  unfold Executions.called
  split
  next => exact ⟨other, known, has⟩
  next => exact ⟨other, by rw [List.getElem?_append_left (List.getElem?_eq_some_iff.mp known).1]; exact known, has⟩

/-- A watchdog that has interrupted does not come back to it. -/
def Spent (watch : Watch) : Prop := watch.watcher = .leaving ∨ watch.watcher = .ended

/-- With these the calling thread is done with a query, or begins another call. -/
def Turns : ExecutorEvent → Prop
  | .call _ | .mark | .join => True
  | _ => False

/-- A call with a timeout of one millisecond that is interrupted. -/
def slowQuery : List ExecutorEvent := [.call 1, .acquire 0, .test 0, .tick, .expire 0, .acquire 0, .test 0]

private theorem slowQuery_runs : ∃ state after, Run Step {} slowQuery state ∧ Step state (.interrupt 0) after ∧ after.caller = .executing := by
  refine ⟨_, _, .next (.call rfl) (.next (@Step.begin _ _ ⟨1, 0, .starting, none, false, 0⟩ rfl rfl rfl) (.next (@Step.test _ _ _ false rfl rfl)
    (.next .tick (.next (.expire rfl rfl (Nat.le_refl _)) (.next (@Step.reacquire _ _ _ true rfl rfl rfl) (.next (@Step.test _ _ _ true rfl rfl) .done)))))),
    .interrupt rfl rfl, rfl⟩

/-- What one of the two threads does, or the timer of a wait. -/
def Acts : ExecutorEvent → Bool
  | .tick | .call _ | .wake _ => false
  | _ => true

def isCall : ExecutorEvent → Bool
  | .call _ => true
  | _ => false

def isWake : ExecutorEvent → Bool
  | .wake _ => true
  | _ => false

/-- How many steps a thread has before it at most. A watchdog that is notified has
more before it than one that waits, which the calling thread pays for. -/
def callerRank : Caller → Nat
  | .idle => 0
  | .direct | .joining => 1
  | .notifying => 4
  | .marked => 5
  | .locked => 6
  | .executed => 7
  | .executing => 8

def watcherRank : Watcher → Nat
  | .ended => 0
  | .leaving => 1
  | .interrupting => 2
  | .testing true => 3
  | .waking true => 4
  | .waiting => 5
  | .testing false => 6
  | .waking false | .starting => 7

def rank (state : Executions) : Nat := callerRank state.caller + (state.watches.map fun watch => watcherRank watch.watcher).sum

private theorem sum_set (weight : Watch → Nat) {watches : List Watch} (found : watches[i]? = some watch) (new : Watch) :
    ((watches.set i new).map weight).sum + weight watch = (watches.map weight).sum + weight new := by
  induction watches generalizing i with
  | nil => cases found
  | cons first watches ih =>
    cases i with
    | zero =>
      cases found
      simp only [List.set_cons_zero, List.map_cons, List.sum_cons]
      omega
    | succ i =>
      have later := ih found
      simp only [List.set_cons_succ, List.map_cons, List.sum_cons]
      omega

private theorem rank_put (cost gain : Nat) (found : state.watches[i]? = some watch) {new : Watch} {caller : Caller}
    (pays : callerRank caller + watcherRank new.watcher + cost ≤ callerRank state.caller + watcherRank watch.watcher + gain) :
    rank { state.put i new with caller := caller } + cost ≤ rank state + gain := by
  have moved := sum_set (fun watch => watcherRank watch.watcher) found new
  unfold rank Executions.put
  dsimp only
  omega

private theorem tested_rank (watch : Watch) (late : Bool) : watcherRank (watch.tested late).watcher < watcherRank (.testing late) := by
  unfold Watch.tested
  cases watch.done with
  | true => cases late <;> simp [watcherRank]
  | false => cases late <;> simp [watcherRank]

private theorem notified_rank (watch : Watch) : watcherRank watch.notified.watcher ≤ watcherRank watch.watcher + 2 := by
  unfold Watch.notified
  by_cases waiting : watch.watcher = .waiting
  · simp [waiting, watcherRank]
  · simp [waiting]

private theorem step_pays {event : ExecutorEvent} (stepped : Step state event after) :
    rank after + (if Acts event then 1 else 0) ≤ rank state + ((if isCall event then 15 else 0) + if isWake event then 2 else 0) := by
  cases stepped with
  | tick => exact Nat.le_refl _
  | call =>
    unfold Executions.called rank
    split
    next =>
      simp [Acts, isCall, isWake, callerRank]
      omega
    next =>
      simp [Acts, isCall, isWake, callerRank, watcherRank]
      omega
  | direct at' | finish at' | join at' =>
    unfold rank
    simp only [Acts, isCall, isWake, callerRank, at', if_true, Bool.false_eq_true, if_false]
    omega
  | lock at' found | mark at' found | unlock at' found =>
    refine rank_put 1 0 found ?_
    rw [at']
    simp only [callerRank]
    omega
  | @notify watch at' found =>
    have woken := notified_rank watch
    refine rank_put 1 0 found ?_
    rw [at']
    simp only [callerRank]
    omega
  | begin found phase | expire found phase | interrupt found phase | leave found phase =>
    refine rank_put 1 0 found ?_
    rw [phase]
    exact Nat.le_refl _
  | @reacquire _ watch late found phase =>
    refine rank_put 1 0 found ?_
    rw [phase]
    cases late <;> exact Nat.le_refl _
  | @test _ watch late found phase =>
    have lower := tested_rank watch late
    refine rank_put 1 0 found ?_
    rw [phase]
    omega
  | wake found phase =>
    refine rank_put 0 2 found ?_
    rw [phase]
    exact Nat.le_refl _

private theorem sum_counts (chosen : ExecutorEvent → Bool) (value : Nat) (events : List ExecutorEvent) :
    (events.map fun event => if chosen event then value else 0).sum = value * events.countP chosen := by
  induction events with
  | nil => rfl
  | cons event events ih =>
    rw [List.map_cons, List.sum_cons, ih, List.countP_cons]
    split
    next => rw [Nat.mul_add, Nat.mul_one, Nat.add_comm]
    next => rw [Nat.zero_add, Nat.add_zero]

private theorem sum_gains (events : List ExecutorEvent) :
    (events.map fun event => (if isCall event then 15 else 0) + if isWake event then 2 else 0).sum =
      15 * events.countP isCall + 2 * events.countP isWake := by
  rw [← sum_counts, ← sum_counts]
  induction events with
  | nil => rfl
  | cons event events ih =>
    simp only [List.map_cons, List.sum_cons, ih]
    omega

private theorem call_moves (sound : Sound state) (inCall : InCall state.caller) (finished : state.caller ≠ .executing) :
    ∃ event after, Acts event = true ∧ Step state event after := by
  cases sound with
  | quiet none ended => exact (none.elim inCall.1 inCall.2).elim
  | active earlier watch whole ended agree =>
    have found := current_found whole
    -- Unless it waits for the mutex, the watchdog can act by itself.
    have watcher : watch.watcher ≠ .starting ∧ (∀ late, watch.watcher ≠ .waking late) ∧ watch.watcher ≠ .waiting ∧
        watch.watcher ≠ .ended → ∃ event after, Acts event = true ∧ Step state event after := by
      intro ⟨starting, waking, waiting, ended⟩
      cases phase : watch.watcher with
      | starting => exact absurd phase starting
      | waking late => exact absurd phase (waking late)
      | waiting => exact absurd phase waiting
      | ended => exact absurd phase ended
      | testing late => exact ⟨_, _, rfl, .test found phase⟩
      | interrupting => exact ⟨_, _, rfl, .interrupt found phase⟩
      | leaving => exact ⟨_, _, rfl, .leave found phase⟩
    cases caller : state.caller with
    | idle => exact absurd caller inCall.1
    | direct => exact absurd caller inCall.2
    | executing => exact absurd caller finished
    | locked => exact ⟨_, _, rfl, .mark caller found⟩
    | marked => exact ⟨_, _, rfl, .unlock caller found⟩
    | notifying => exact ⟨_, _, rfl, .notify caller found⟩
    | executed =>
      cases holder : watch.holder with
      | none => exact ⟨_, _, rfl, .lock caller found holder⟩
      | some party =>
        cases party with
        | caller =>
          rcases agree.callerHolds.mp holder with locked | marked
          · cases caller.symm.trans locked
          · cases caller.symm.trans marked
        | watcher =>
          apply watcher
          rcases agree.watcherHolds.mp holder with ⟨late, phase⟩ | phase | phase <;> simp [phase]
    | joining =>
      have unheld : watch.holder ≠ some .caller := by
        intro holds
        rcases agree.callerHolds.mp holds with locked | marked
        · cases caller.symm.trans locked
        · cases caller.symm.trans marked
      cases phase : watch.watcher with
      | ended => exact ⟨_, _, rfl, .join caller found phase⟩
      | waiting => exact absurd phase (agree.woken caller)
      | testing | interrupting | leaving => exact watcher (by simp [phase])
      | starting =>
        have free := agree.free (by simp [caller]) (by simp [phase])
        exact ⟨_, _, rfl, .begin found phase free⟩
      | waking late =>
        have free := agree.free (by simp [caller]) (by simp [phase])
        exact ⟨_, _, rfl, .reacquire found phase free⟩

/-- The threads take a bounded number of steps for each call and each spurious
wakeup, and while a call has its result but has not returned, one of them can take
the next step: it never has to wait for the deadline. -/
theorem call_returns {events : List ExecutorEvent} (run : Run Step {} events state) :
    events.countP Acts ≤ 15 * events.countP isCall + 2 * events.countP isWake ∧
      (InCall state.caller → state.caller ≠ .executing → ∃ event after, Acts event = true ∧ Step state event after) := by
  have bounded := run.bounded rank _ _ fun _ _ _ _ => step_pays
  rw [sum_counts, sum_gains] at bounded
  have start : rank {} = 0 := rfl
  exact ⟨by omega, call_moves (run_sound run)⟩

/-- A slow query that the watchdog interrupts and that then returns. -/
def interruptedQuery : List ExecutorEvent := slowQuery ++ [.interrupt 0, .finish]

theorem call_returns_slow : ∃ state, Run Step {} interruptedQuery state ∧
    interruptedQuery.countP Acts ≤ 15 * interruptedQuery.countP isCall + 2 * interruptedQuery.countP isWake ∧
    ∃ event after, Acts event = true ∧ Step state event after := by
  obtain ⟨state, after, run, interrupts, executing⟩ := slowQuery_runs
  have whole := run.append (.next interrupts (.single (.finish executing)))
  have returns := call_returns whole
  exact ⟨_, whole, returns.1, returns.2 ⟨nofun, nofun⟩ nofun⟩

/-- A watchdog that is through although its call is not has interrupted. -/
def Through (watch : Watch) : Prop := Spent watch ∧ watch.done = false

private theorem step_through {event : ExecutorEvent} {j : Nat} (stepped : Step state event after) (through : Keeps Through j after) :
    event = .interrupt j ∨ Keeps Through j state := by
  -- Where a step replaces locals, it is enough to look at the old and the new ones.
  have put : ∀ {i : Nat} {watch new : Watch} {caller : Caller}, Keeps Through j { state.put i new with caller := caller } →
      state.watches[i]? = some watch → (i = j → Through new → Through watch) → Keeps Through j state := by
    intro i watch new caller keeps found back
    obtain ⟨other, known, has⟩ := keeps
    have known : (state.put i new).watches[j]? = some other := known
    rw [put_get found] at known
    split at known
    next same =>
      cases known
      exact ⟨watch, same ▸ found, back same has⟩
    next => exact ⟨other, known, has⟩
  cases stepped with
  | tick | direct | finish | join => exact .inr through
  | @call _ timeoutMs =>
    right
    unfold Executions.called at through
    split at through
    next => exact through
    next =>
      obtain ⟨other, known, has⟩ := through
      dsimp only at known
      rcases Nat.lt_or_ge j state.watches.length with inside | outside
      · rw [List.getElem?_append_left inside] at known
        exact ⟨other, known, has⟩
      · rw [List.getElem?_append_right outside] at known
        have fresh := List.mem_singleton.mp (List.mem_of_getElem? known)
        simp [fresh, Through, Spent] at has
  | lock _ found => exact .inr (put through found fun _ => id)
  | mark _ found => exact .inr (put through found fun _ has => absurd has.2 (by simp))
  | unlock _ found => exact .inr (put through found fun _ => id)
  | notify _ found =>
    refine .inr (put through found fun _ => ?_)
    unfold Watch.notified
    split
    next => intro has; simp [Through, Spent] at has
    next => exact id
  | begin found | reacquire found | wake found | expire found =>
    exact .inr (put through found fun _ has => by simp [Through, Spent] at has)
  | test found =>
    refine .inr (put through found fun _ => ?_)
    unfold Watch.tested
    split
    next done => intro has; simp [Through, done] at has
    next =>
      split
      · intro has; simp [Through, Spent] at has
      · intro has; simp [Through, Spent] at has
  | @interrupt i watch found =>
    by_cases same : i = j
    · exact .inl (by rw [same])
    · exact .inr (put through found fun equal => absurd equal same)
  | leave found leaving => exact .inr (put through found fun _ has => ⟨.inl leaving, has.2⟩)

private theorem run_through {past : List ExecutorEvent} (run : Run Step {} past state) :
    ∀ j, Keeps Through j state → .interrupt j ∈ past := by
  refine run.history (fun past state => ∀ j, Keeps Through j state → .interrupt j ∈ past) ?_ ?_
  · rintro j ⟨watch, found, -⟩
    cases found
  · intro past event rest before after _ _ stepped told j through
    rcases step_through stepped through with same | was
    · exact List.mem_append_right _ (List.mem_singleton.mpr same.symm)
    · exact List.mem_append_left _ (told j was)

/-- The clock, or what a watchdog does by itself. -/
def Alone (i : Nat) (event : ExecutorEvent) : Prop :=
  event = .tick ∨ event = .acquire i ∨ event = .test i ∨ event = .expire i

/-- The watchdog can interrupt without any step of the calling thread. -/
def Forces (i : Nat) (state : Executions) : Prop :=
  ∃ events after, (∀ event ∈ events, Alone i event) ∧ Run Step state (events ++ [.interrupt i]) after

private theorem Forces.step {event : ExecutorEvent} (stepped : Step state event after) (alone : Alone i event) (forces : Forces i after) :
    Forces i state := by
  obtain ⟨events, last, each, run⟩ := forces
  refine ⟨event :: events, last, ?_, .next stepped run⟩
  intro other member
  rcases List.mem_cons.mp member with rfl | later
  · exact alone
  · exact each other later

/-- The calling thread waits for its query, and its watchdog stands here. -/
structure Stands (i : Nat) (watcher : Watcher) (state : Executions) : Prop where
  sound : Sound state
  executing : state.caller = .executing
  here : Keeps (fun watch => watch.watcher = watcher ∧ watch.done = false) i state

private theorem Stands.free {watcher : Watcher} (stands : Stands i watcher state) (found : state.watches[i]? = some watch)
    (live : watcher ≠ .ended)
    (apart : ¬ ((∃ late, watcher = .testing late) ∨ watcher = .interrupting ∨ watcher = .leaving)) : watch.holder = none := by
  obtain ⟨other, known, phase, -⟩ := stands.here
  cases found.symm.trans known
  obtain ⟨earlier, -, -, -, agree⟩ := stands.sound.last found (by rw [phase]; exact live)
  exact agree.free (by simp [stands.executing]) (by rw [phase]; exact apart)

private theorem Stands.moved {event : ExecutorEvent} {watcher next : Watcher} (stands : Stands i watcher state)
    (found : state.watches[i]? = some watch) {new : Watch} (stepped : Step state event (state.put i new)) (there : new.watcher = next)
    (undone : new.done = false) : Stands i next (state.put i new) where
  sound := step_sound stepped stands.sound
  executing := stands.executing
  here := ⟨new, by rw [put_get found, if_pos rfl], there, undone⟩

private theorem forces_interrupting (stands : Stands i .interrupting state) : Forces i state := by
  obtain ⟨watch, found, phase, -⟩ := stands.here
  exact ⟨[], _, nofun, .single (.interrupt found phase)⟩

private theorem forces_late (stands : Stands i (.testing true) state) : Forces i state := by
  obtain ⟨watch, found, phase, undone⟩ := stands.here
  have stepped := Step.test found phase
  have tested : watch.tested true = { watch with watcher := .interrupting } := by
    simp [Watch.tested, undone]
  rw [tested] at stepped
  exact (forces_interrupting (stands.moved found stepped rfl undone)).step stepped (.inr (.inr (.inl rfl)))

private theorem forces_expired (stands : Stands i (.waking true) state) : Forces i state := by
  obtain ⟨watch, found, phase, undone⟩ := stands.here
  have stepped := Step.reacquire found phase (stands.free found nofun (by simp))
  exact (forces_late (stands.moved found stepped rfl undone)).step stepped (.inr (.inl rfl))

private theorem forces_waiting (time : Nat) (stands : Stands i .waiting state)
    (left : ∀ watch, state.watches[i]? = some watch → watch.deadline ≤ state.clock + time) : Forces i state := by
  induction time generalizing state with
  | zero =>
    obtain ⟨watch, found, phase, undone⟩ := stands.here
    have stepped := Step.expire found phase (left watch found)
    exact (forces_expired (stands.moved found stepped rfl undone)).step stepped (.inr (.inr (.inr rfl)))
  | succ time ih =>
    have later : Stands i .waiting { state with clock := state.clock + 1 } :=
      ⟨step_sound .tick stands.sound, stands.executing, stands.here⟩
    refine (ih later ?_).step .tick (.inl rfl)
    intro watch found
    have bound := left watch found
    dsimp only
    omega

private theorem forces_testing (stands : Stands i (.testing false) state) : Forces i state := by
  obtain ⟨watch, found, phase, undone⟩ := stands.here
  have stepped := Step.test found phase
  have tested : watch.tested false = { watch with watcher := .waiting, holder := none } := by
    simp [Watch.tested, undone]
  rw [tested] at stepped
  have waits := stands.moved found stepped rfl undone
  refine (forces_waiting watch.deadline waits ?_).step stepped (.inr (.inr (.inl rfl)))
  intro other known
  rw [put_get found, if_pos rfl] at known
  cases known
  exact Nat.le_add_left _ _

/-- While a query runs, its watchdog has interrupted it or can do so by itself,
when the time has come: whatever has happened before, no wakeup is needed for it. -/
theorem deadline_enforced {past : List ExecutorEvent} (run : Run Step {} past state) (executing : state.caller = .executing) :
    .interrupt state.current ∈ past ∨ Forces state.current state := by
  have sound := run_sound run
  have known := sound
  cases known with
  | quiet none _ => simp [executing] at none
  | active earlier watch whole ended agree =>
    have found := current_found whole
    have undone : watch.done = false := by
      rw [Bool.eq_false_iff]
      intro done
      have finished := agree.done.mp done
      simp [executing] at finished
    have stands : Stands state.current watch.watcher state := ⟨sound, executing, watch, found, rfl, undone⟩
    cases phase : watch.watcher with
    | leaving => exact .inl (run_through run _ ⟨watch, found, .inl phase, undone⟩)
    | ended => exact .inl (run_through run _ ⟨watch, found, .inr phase, undone⟩)
    | interrupting => exact .inr (forces_interrupting (phase ▸ stands))
    | testing late =>
      rw [phase] at stands
      cases late with
      | true => exact .inr (forces_late stands)
      | false => exact .inr (forces_testing stands)
    | waking late =>
      rw [phase] at stands
      cases late with
      | true => exact .inr (forces_expired stands)
      | false =>
        have stepped := Step.reacquire found phase (stands.free found nofun (by simp))
        exact .inr ((forces_testing (stands.moved found stepped rfl undone)).step stepped (.inr (.inl rfl)))
    | starting =>
      rw [phase] at stands
      have stepped := Step.begin found phase (stands.free found nofun (by simp))
      exact .inr ((forces_testing (stands.moved found stepped rfl undone)).step stepped (.inr (.inl rfl)))
    | waiting =>
      rw [phase] at stands
      refine .inr (forces_waiting watch.deadline stands ?_)
      intro other same
      cases found.symm.trans same
      exact Nat.le_add_left _ _

/-- The watchdog waits again after a spurious wakeup. -/
private def wokenQuery : List ExecutorEvent := [.call 0, .finish, .call 5, .acquire 0, .test 0, .tick, .wake 0, .acquire 0, .test 0]

theorem deadline_enforced_woken : ∃ state, Run Step {} wokenQuery state ∧ Forces 0 state := by
  have run : ∃ state, Run Step {} wokenQuery state ∧ state.caller = .executing ∧ state.current = 0 :=
    ⟨_, .next (.call rfl) (.next (.direct rfl) (.next (.call rfl) (.next (@Step.begin _ _ ⟨5, 0, .starting, none, false, 0⟩ rfl rfl rfl)
      (.next (@Step.test _ _ _ false rfl rfl) (.next .tick (.next (.wake rfl rfl) (.next (@Step.reacquire _ _ _ false rfl rfl rfl)
      (.next (@Step.test _ _ _ false rfl rfl) .done)))))))), rfl, rfl⟩
  obtain ⟨state, run, executing, current⟩ := run
  have enforced := deadline_enforced run executing
  rw [current] at enforced
  exact ⟨state, run, enforced.resolve_left (by decide)⟩

end DuckdbOdata.Watchdogs
