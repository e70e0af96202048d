import DuckdbOdata.Foundation.Run
import DuckdbOdata.Server.Lifecycle

/-! What runs on when `odata_stop` has returned. It waits for the accept thread only,
so a connection that has no response yet may still execute and commit, or call the
handler of the server that was destroyed. If there is none, all is quiet until the
next `odata_serve`. -/

namespace DuckdbOdata.Quiescence
open Text Lifecycle

variable {read : BodyReader}

/-- There is no response yet. -/
def Unanswered : Connection → Prop
  | .reading | .called _ | .checked .. | .handling _ => True
  | .sending | .finished => False

/-- Every connection that was accepted has its response. -/
def Answered (state : Lifecycle) : Prop := ∀ connection ∈ state.connections, ¬ Unanswered connection

/-- A step, with the condition that every accepted connection has its response when
`odata_stop` returns. -/
def Orderly (read : BodyReader) (before : Lifecycle) (event : LifecycleEvent) (after : Lifecycle) : Prop :=
  Step read before event after ∧ (event.returnsStop → Answered before)

/-- No server, no accept thread, and the lock is free. -/
structure Idle (state : Lifecycle) : Prop where
  running : state.running = false
  acceptor : state.acceptor = none
  stopping : state.stopping = false

/-- Without a server nobody accepts, and no connection still needs a server that
was destroyed. -/
structure Sound (state : Lifecycle) : Prop where
  idle : state.running = false → Idle state
  stoppable : state.running = true → state.looping = true ∨ state.stopRequested = true
  bounded : state.destroyed ≤ state.connections.length
  served : ∀ thread connection, state.connections[thread]? = some connection → thread < state.destroyed → ¬ Unanswered connection

private theorem Sound.enter {state : Lifecycle} (sound : Sound state) {thread : Nat} {one next : Connection}
    (found : state.connections[thread]? = some one) (moves : thread < state.destroyed → ¬ Unanswered next) :
    Sound (state.enter thread next) where
  idle none := ⟨none, (sound.idle none).acceptor, (sound.idle none).stopping⟩
  stoppable := sound.stoppable
  bounded := sound.bounded.trans List.length_set.ge
  served other connection present old := by
    have inside := (List.getElem?_eq_some_iff.mp found).1
    by_cases same : thread = other
    · subst same
      cases (List.getElem?_set_self inside).symm.trans present
      exact moves old
    · exact sound.served other connection ((List.getElem?_set_ne same).symm.trans present) old

private theorem Sound.unanswered {state : Lifecycle} (sound : Sound state) {thread : Nat} {one : Connection}
    (found : state.connections[thread]? = some one) (waits : Unanswered one) {next : Connection} : Sound (state.enter thread next) :=
  sound.enter found fun old => absurd waits (sound.served thread one found old)

private theorem Sound.live {state : Lifecycle} (sound : Sound state) {acceptor : Acceptor}
    (present : state.acceptor = some acceptor) : state.running = true := by
  cases running : state.running with
  | true => rfl
  | false =>
    rw [(sound.idle running).acceptor] at present
    cases present

private theorem Sound.loop {state : Lifecycle} (sound : Sound state) {acceptor : Acceptor}
    (present : state.acceptor = some acceptor) (next : Acceptor) : Sound (state.loop next) := by
  have running := sound.live present
  unfold Lifecycle.loop
  split
  next requested =>
    exact ⟨fun none => absurd (running.symm.trans none) nofun, fun _ => .inr requested, sound.bounded, sound.served⟩
  next => exact ⟨fun none => absurd (running.symm.trans none) nofun, sound.stoppable, sound.bounded, sound.served⟩

private theorem Sound.stoppable_false {state : Lifecycle} (sound : Sound state) (none : state.stoppable = false) :
    state.running = false := by
  cases running : state.running with
  | false => rfl
  | true =>
    rcases sound.stoppable running with holds | holds <;> simp [Lifecycle.stoppable, running, holds] at none

private theorem Answered.served {state : Lifecycle} (answered : Answered state) {thread : Nat} {connection : Connection}
    (found : state.connections[thread]? = some connection) : ¬ Unanswered connection :=
  answered connection (List.mem_of_getElem? found)

/-- In an orderly step no handler of a destroyed server is called. -/
theorem step_sound {before after : Lifecycle} {event : LifecycleEvent} (stepped : Orderly read before event after)
    (sound : Sound before) : (∀ thread segments, event ≠ .dangle thread segments) ∧ Sound after := by
  obtain ⟨stepped, condition⟩ := stepped
  cases stepped with
  | test present => exact ⟨nofun, sound.loop present _⟩
  | acceptFails present => exact ⟨nofun, sound.loop present _⟩
  | connect present _ =>
    exact ⟨nofun, fun none => absurd ((sound.live present).symm.trans none) nofun, sound.stoppable, sound.bounded, sound.served⟩
  | spawn present =>
    refine ⟨nofun, fun none => absurd ((sound.live present).symm.trans none) nofun, sound.stoppable, ?_, ?_⟩
    · rw [List.length_append]
      exact sound.bounded.trans (Nat.le_add_right _ _)
    · intro thread connection found old
      rw [List.getElem?_append_left (old.trans_le sound.bounded)] at found
      exact sound.served thread connection found old
  | receive found _ => exact ⟨nofun, sound.unanswered found trivial⟩
  | dangle found _ old => exact absurd trivial (sound.served _ _ found old)
  | check found _ => exact ⟨nofun, sound.unanswered found trivial⟩
  | snapshot found _ => exact ⟨nofun, sound.unanswered found trivial⟩
  | call found => exact ⟨nofun, sound.unanswered found trivial⟩
  | respond found => exact ⟨nofun, sound.unanswered found trivial⟩
  | send found => exact ⟨nofun, sound.enter found fun _ => id⟩
  | configure =>
    exact ⟨nofun, fun none => ⟨none, (sound.idle none).acceptor, (sound.idle none).stopping⟩, sound.stoppable, sound.bounded, sound.served⟩
  | serve => exact ⟨nofun, nofun, fun _ => .inl rfl, sound.bounded, sound.served⟩
  | stopNothing free nothing =>
    have running := sound.stoppable_false nothing
    have idle := sound.idle running
    simp only [running, Bool.false_eq_true, if_false]
    exact ⟨nofun, fun _ => ⟨rfl, idle.acceptor, free⟩, nofun, sound.bounded, sound.served⟩
  | requestStop _ able =>
    have running : before.running = true := (Bool.and_eq_true_iff.mp able).1
    exact ⟨nofun, fun none => absurd (running.symm.trans none) nofun, fun _ => .inr rfl, sound.bounded, sound.served⟩
  | closeListener holds =>
    refine ⟨nofun, fun none => ?_, sound.stoppable, sound.bounded, sound.served⟩
    rw [(sound.idle none).stopping] at holds
    cases holds
  | join =>
    have answered := condition trivial
    exact ⟨nofun, fun _ => ⟨rfl, rfl, rfl⟩, nofun, Nat.le_refl _, fun thread connection found _ => answered.served found⟩

theorem run_sound {events : List LifecycleEvent} {state : Lifecycle} (run : Run (Orderly read) {} events state) :
    (∀ event ∈ events, ∀ thread segments, event ≠ .dangle thread segments) ∧ Sound state :=
  run.labels Sound _ ⟨fun _ => ⟨rfl, rfl, rfl⟩, nofun, Nat.le_refl 0, nofun⟩ fun _ _ _ _ stepped sound => step_sound stepped sound

/-- There is no server, and every connection has its response. -/
structure Quiet (state : Lifecycle) : Prop where
  idle : Idle state
  answered : Answered state

/-- When `odata_stop` returns there is no server. -/
theorem returned_quiet {before after : Lifecycle} {event : LifecycleEvent} (stepped : Orderly read before event after)
    (sound : Sound before) (returns : event.returnsStop) : Quiet after := by
  have answered := stepped.2 returns
  have later := (step_sound stepped sound).2
  obtain ⟨stepped, -⟩ := stepped
  cases stepped with
  | stopNothing => exact ⟨later.idle rfl, answered⟩
  | join => exact ⟨later.idle rfl, answered⟩
  | _ => exact returns.elim

/-- Without a server, responses are sent and the bindings are changed, and nothing
else happens. -/
theorem step_quiet {before after : Lifecycle} {event : LifecycleEvent} (stepped : Orderly read before event after)
    (quiet : Quiet before) (noServe : ∀ config, event ≠ .serve config) :
    (event.handlerOf = none ∧ event.committerOf = none) ∧ Quiet after := by
  obtain ⟨idle, answered⟩ := quiet
  have none : ∀ {acceptor}, before.acceptor ≠ some acceptor := by simp [idle.acceptor]
  obtain ⟨stepped, -⟩ := stepped
  cases stepped with
  | test present => exact absurd present none
  | acceptFails present => exact absurd present none
  | connect present _ => exact absurd present none
  | spawn present => exact absurd present none
  | receive found _ => exact absurd trivial (answered.served found)
  | dangle found _ _ => exact absurd trivial (answered.served found)
  | check found _ => exact absurd trivial (answered.served found)
  | snapshot found _ => exact absurd trivial (answered.served found)
  | call found => exact absurd trivial (answered.served found)
  | respond found => exact absurd trivial (answered.served found)
  | send found =>
    refine ⟨⟨rfl, rfl⟩, ⟨idle.running, idle.acceptor, idle.stopping⟩, fun connection member => ?_⟩
    rcases List.mem_or_eq_of_mem_set member with other | rfl
    · exact answered connection other
    · exact id
  | configure => exact ⟨⟨rfl, rfl⟩, ⟨idle.running, idle.acceptor, idle.stopping⟩, answered⟩
  | serve => exact absurd rfl (noServe _)
  | stopNothing => exact ⟨⟨rfl, rfl⟩, ⟨rfl, idle.acceptor, idle.stopping⟩, answered⟩
  | requestStop _ able => simp [Lifecycle.stoppable, idle.running] at able
  | closeListener holds => simp [idle.stopping] at holds
  | join holds => simp [idle.stopping] at holds

/-- If every accepted connection has its response whenever `odata_stop` returns, then
until the next `odata_serve` no handler executes and no write is committed; nor does
any thread ever call the handler of a destroyed server. -/
theorem stop_quiescent {past between : List LifecycleEvent} {event : LifecycleEvent} {stopped after : Lifecycle}
    (returns : event.returnsStop) (reached : Run (Orderly read) {} (past ++ [event]) stopped)
    (later : Run (Orderly read) stopped between after) (noServe : ∀ config, .serve config ∉ between) :
    (∀ other ∈ between, other.handlerOf = none ∧ other.committerOf = none) ∧
      ∀ thread segments, .dangle thread segments ∉ past ++ [event] ++ between := by
  obtain ⟨before, initial, last⟩ := reached.split
  have quiet : Quiet stopped := by
    cases last with
    | next stepped none =>
      cases none
      exact returned_quiet stepped (run_sound initial).2 returns
  constructor
  · refine (later.labels Quiet _ quiet ?_).1
    intro other member before after stepped quiet
    exact step_quiet stepped quiet fun config same => noServe config (same ▸ member)
  · intro thread segments member
    exact (run_sound (reached.append later)).1 _ member thread segments rfl

private def people : EntityBinding where
  name := "people".toList
  table := "people".toList
  configuredKeys := ["id".toList]

private def columns : Catalog where
  columns _ := .ok [{
    columnName := "id".toList
    dataType := "INTEGER".toList
    databaseName := "db".toList
    schemaName := "main".toList }]
  primaryKeys _ := .ok []

private def deletePeople : HttpRequest := { method := "DELETE".toList, path := "/odata/people(1)".toList }

private def arrived : List Segment := [⟨"DELETE /odata/people(1) HTTP/1.1\r\n\r\n".toList, by decide, by decide⟩]

private def deleteSql : Str :=
  "DELETE FROM \"db\".\"main\".\"people\" WHERE \"id\" = CAST(? AS INTEGER) RETURNING \"id\"".toList

private theorem nothing_shaped : ∀ chunk ∈ ([] : List (List Row)), ∀ row ∈ chunk, row.length = ([] : List Str).length :=
  fun _ member => absurd member List.not_mem_nil

private def nothing : ResultSet := ⟨[], [], nothing_shaped⟩

private theorem receive_arrived : receive arrived = .handled deletePeople := by decide +kernel

/-- The server is up and has one connection. -/
private def serving (connection : Connection) : Lifecycle where
  config := { readOnly := false, bindings := [people] }
  running := true
  looping := true
  listening := true
  acceptor := some .testing
  connections := [connection]

private def connecting : List LifecycleEvent := [.configure [people], .serve { readOnly := false }, .test, .connect, .spawn]

private theorem serving_reading : Run (Step fun _ => none) {} connecting (serving .reading) :=
  .next (.configure rfl) <| .next (.serve rfl rfl) <| .next (.test rfl) <| .next (.connect rfl rfl) <| .single (.spawn rfl)

private theorem serving_called : Run (Step fun _ => none) {} (connecting ++ [.receive 0 arrived]) (serving (.called deletePeople)) := by
  have step : Step (fun _ => none) (serving .reading) (.receive 0 arrived) _ := .receive rfl fun _ _ => Nat.zero_le _
  rw [receive_arrived] at step
  exact serving_reading.append (.single step)

private theorem call_asking {state : Lifecycle} {thread : Nat} {program : Handler} {op : DbCall} {next : op.Answer → Handler}
    (found : state.connections[thread]? = some (.handling program)) (asks : program = .ask op next) (answer : op.Answer) :
    Step read state (.call thread op answer) (state.enter thread (.handling (next answer))) := by
  subst asks
  exact .call found

private def peopleId : EdmProperty where
  name := "id".toList
  edmType := .int32
  isKey := true
  duckdbType := "INTEGER".toList

private def peopleEntity : EdmEntity where
  name := "people".toList
  catalog := "db".toList
  schema := "main".toList
  table := "people".toList
  properties := [peopleId]
  hasKey := true

private theorem handler_writes :
    handleODataRequest (fun _ => none) { readOnly := false, bindings := [people] } columns deletePeople =
      executeWrite (fun _ => none) deletePeople peopleEntity ["1".toList] "/odata".toList := by
  exact rfl

private theorem write_planned : ∃ plan, planWrite (fun _ => none) deletePeople peopleEntity ["1".toList] = .ok plan ∧
    plan.sql = deleteSql ∧ plan.parameters = [.text "1".toList] :=
  ⟨_, rfl, by decide +kernel, by decide +kernel⟩

private theorem write_asks : ∃ begun prepared executed fetched ended next,
    executeWrite (fun _ => none) deletePeople peopleEntity ["1".toList] "/odata".toList =
      .ask (.query "BEGIN TRANSACTION".toList) begun ∧
    begun (.ok (.ok nothing)) = .ask (.prepare deleteSql) prepared ∧
    prepared (.ok none) = .ask (.execute [.text "1".toList]) executed ∧
    executed (.ok (.ok ())) = .ask .fetch fetched ∧
    fetched (.ok (some [[.integer 1]])) = .ask .fetch ended ∧
    ended (.ok none) = .ask (.query "COMMIT".toList) next ∧ next (.ok (.ok nothing)) = .done (.ok deletedOrUpdated) := by
  obtain ⟨⟨sql, parameters, key⟩, planned, rfl, rfl⟩ := write_planned
  rw [executeWrite, planned]
  exact ⟨_, _, _, _, _, _, rfl, rfl, rfl, rfl, rfl, rfl, rfl⟩

private def deleting : List LifecycleEvent :=
  [.check 0, .snapshot 0 columns 0, .call 0 (.query "BEGIN TRANSACTION".toList) (.ok (.ok nothing)),
    .call 0 (.prepare deleteSql) (.ok none), .call 0 (.execute [.text "1".toList]) (.ok (.ok ())),
    .call 0 .fetch (.ok (some [[.integer 1]])), .call 0 .fetch (.ok none)]

private theorem serving_deletes : ∃ next : DbCall.Answer (.query "COMMIT".toList) → Handler,
    Run (Step fun _ => none) {} (connecting ++ [.receive 0 arrived] ++ deleting) (serving (.handling (.ask (.query "COMMIT".toList) next))) ∧
      next (.ok (.ok nothing)) = .done (.ok deletedOrUpdated) := by
  obtain ⟨begun, prepared, executed, fetched, ended, next, begins, prepares, executes, fetches, ends, commits, responds⟩ := write_asks
  have asks := handler_writes.trans begins
  refine ⟨next, serving_called.append ?_, responds⟩
  rw [← commits]
  exact .next (.check rfl rfl) <| .next (.snapshot rfl (.inl rfl)) <| .next (call_asking rfl asks _) <|
    .next (call_asking rfl prepares _) <| .next (call_asking rfl executes _) <| .next (call_asking rfl fetches _) <|
    .single (call_asking rfl ends _)

private def stopped (connection : Connection) : Lifecycle where
  config := { readOnly := false, bindings := [people] }
  stopRequested := true
  connections := [connection]
  destroyed := 1

private def stopping (connection : Connection) : Lifecycle :=
  { serving connection with stopRequested := true, looping := false, listening := false, acceptor := some .ended, stopping := true }

private theorem serving_stopping (connection : Connection) :
    Run (Step fun _ => none) (serving connection) [.requestStop, .test, .closeListener] (stopping connection) :=
  .next (.requestStop rfl rfl) <| .next (.test rfl) <| .single (.closeListener rfl)

private theorem stopping_joins (connection : Connection) : Step (fun _ => none) (stopping connection) .join (stopped connection) :=
  .join rfl rfl rfl

private def commit : LifecycleEvent := .call 0 (.query "COMMIT".toList) (.ok (.ok nothing))

/-- `odata_stop` has returned, and the write that it found at work commits; a thread
that was still reading calls the handler of the destroyed server. -/
theorem stop_quiescent_commit :
    (∃ past stopped after, Run (Step fun _ => none) {} (past ++ [.join]) stopped ∧
      Run (Step fun _ => none) stopped [commit] after ∧ commit.handlerOf = some 0 ∧ commit.committerOf = some 0) ∧
    ∃ past stopped, Run (Step fun _ => none) {} (past ++ [.join]) stopped ∧
      ∀ after, Run (Step fun _ => none) stopped [.dangle 0 arrived] after := by
  constructor
  · obtain ⟨next, deletes, -⟩ := serving_deletes
    have run := (deletes.append (serving_stopping _)).append (.single (stopping_joins _))
    exact ⟨_, _, _, run, .single (.call rfl), rfl, rfl⟩
  · have run := (serving_reading.append (serving_stopping _)).append (.single (stopping_joins _))
    exact ⟨_, _, run, fun after => .single (.dangle rfl receive_arrived Nat.zero_lt_one)⟩

/-- The write has committed and its response is known before the server is stopped. -/
private def answeredFirst : List LifecycleEvent :=
  connecting ++ [.receive 0 arrived] ++ deleting ++ [commit, .respond 0] ++ [.requestStop, .test, .closeListener]

theorem stop_quiescent_answered :
    (∀ other ∈ [LifecycleEvent.send 0, .configure []], other.handlerOf = none ∧ other.committerOf = none) ∧
      ∀ thread segments, .dangle thread segments ∉ answeredFirst ++ [.join] ++ [.send 0, .configure []] := by
  obtain ⟨next, deletes, responds⟩ := serving_deletes
  have answers : Run (Step fun _ => none) (serving (.handling (.ask (.query "COMMIT".toList) next))) [commit, .respond 0] (serving .sending) :=
    .next (call_asking rfl rfl _) <| .single (.respond (congrArg (fun program => some (Connection.handling program)) responds))
  have run := (deletes.append answers).append (serving_stopping _)
  have quietly : ∀ event ∈ answeredFirst, ¬ event.returnsStop := by
    simp [answeredFirst, connecting, deleting, commit, LifecycleEvent.returnsStop]
  have orderly : Run (Orderly fun _ => none) {} answeredFirst (stopping .sending) :=
    run.mono fun event member _ _ stepped => ⟨stepped, fun returns => absurd returns (quietly event member)⟩
  have answered : Answered (stopping .sending) := by
    intro connection member
    cases List.mem_singleton.mp member
    exact id
  have joins : Orderly (fun _ => none) (stopping .sending) .join (stopped .sending) := ⟨stopping_joins _, fun _ => answered⟩
  have after : Run (Orderly fun _ => none) (stopped .sending) [.send 0, .configure []] _ :=
    .next ⟨.send rfl, nofun⟩ (.single ⟨.configure rfl, nofun⟩)
  exact stop_quiescent trivial (orderly.append (.single joins)) after (by simp)

end DuckdbOdata.Quiescence
