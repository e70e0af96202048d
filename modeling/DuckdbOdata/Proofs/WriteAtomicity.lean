import DuckdbOdata.Execution.Store
import DuckdbOdata.Proofs.WritePlans

/-! Writes are atomic. Whatever the database answers, a refused or failed write
leaves the table as it was, and a reported success has changed exactly one row. -/

namespace DuckdbOdata.WriteAtomicity
open Text FilterGrammar WritePlans

/-- What the method of a write asks for. -/
def dmlFor (request : HttpRequest) : Dml :=
  if request.method = "POST".toList then .insert else if request.method = "PATCH".toList then .update else .delete

/-- An error response or an exception. -/
def Failed : Except Exn HttpResponse → Prop
  | .error _ => True
  | .ok response => 400 ≤ response.status

/-- Every error response of a check has an error status. -/
def Refuses (checked : Except HttpResponse α) : Prop := ∀ response, checked = .error response → 400 ≤ response.status

theorem Refuses.ok (value : α) : Refuses (.ok value) := nofun

theorem Refuses.writeError {status : Nat} (error : 400 ≤ status) (message : Str) :
    Refuses (.error (DuckdbOdata.writeError status message) : Except HttpResponse α) := by
  intro response same
  cases same
  exact error

theorem Refuses.bind {checked : Except HttpResponse α} {next : α → Except HttpResponse β} (first : Refuses checked)
    (rest : ∀ value, Refuses (next value)) : Refuses (checked >>= next) := by
  cases checked with
  | error response => exact fun other same => first other (by cases same; rfl)
  | ok value => exact rest value

private theorem refuses_parameter (prop : EdmProperty) (field : Str) (value : BodyValue) :
    Refuses (bodyParameter prop field value) := by
  cases value with
  | null =>
    rw [bodyParameter]
    split
    · exact .writeError (by decide) _
    · exact .ok _
  | other => exact .writeError (by decide) _
  | _ => exact .ok _

private theorem refuses_member (update : Bool) (entity : EdmEntity) (built : Assignments) (member : Str × BodyValue) :
    Refuses (addMember update entity built member) := by
  unfold addMember
  simp only
  split
  next => exact .writeError (by decide) _
  split
  next => exact .writeError (by decide) _
  split
  next => exact .writeError (by decide) _
  split
  next => exact .writeError (by decide) _
  next => exact (refuses_parameter _ _ _).bind fun _ => .ok _

private theorem refuses_members (update : Bool) (entity : EdmEntity) (members : List (Str × BodyValue)) (built : Assignments) :
    Refuses (members.foldlM (addMember update entity) built) := by
  induction members generalizing built with
  | nil => exact .ok built
  | cons member members ih =>
    rw [List.foldlM_cons]
    exact (refuses_member update entity built member).bind ih

private theorem refuses_key (entity : EdmEntity) : Refuses (writeKey entity) := by
  unfold writeKey
  split
  next => exact .writeError (by decide) _
  next =>
    split
    · exact .writeError (by decide) _
    · exact .ok _
  next => exact .writeError (by decide) _

private theorem refuses_assignments (read : BodyReader) (request : HttpRequest) (entity : EdmEntity) (insert update : Bool) :
    Refuses (writeAssignments read request entity insert update) := by
  unfold writeAssignments
  split
  next =>
    split
    next => exact .writeError (by decide) _
    split
    next => exact .writeError (by decide) _
    next =>
      refine (refuses_members update entity _ _).bind fun built => ?_
      split
      · exact .writeError (by decide) _
      · exact .ok _
  next =>
    split
    · exact .writeError (by decide) _
    · exact .ok _

theorem planWrite_refuses (read : BodyReader) (request : HttpRequest) (entity : EdmEntity) (keys : List Str) :
    Refuses (planWrite read request entity keys) := by
  unfold planWrite
  simp only
  split
  next => exact .writeError (by decide) _
  split
  next => exact .writeError (by decide) _
  split
  next => exact .writeError (by decide) _
  refine (refuses_key entity).bind fun key => (refuses_assignments read request entity _ _).bind fun built => ?_
  split
  · exact .ok _
  · exact .ok _

private theorem dmlOf_insert (rest : Str) : dmlOf ("INSERT INTO ".toList ++ rest) = some .insert := by
  simp [dmlOf]

private theorem dmlOf_update (rest : Str) : dmlOf ("UPDATE ".toList ++ rest) = some .update := by
  simp [dmlOf]

private theorem dmlOf_delete (rest : Str) : dmlOf ("DELETE FROM ".toList ++ rest) = some .delete := by
  simp [dmlOf]

theorem insertSql_dml (entity : EdmEntity) (built : Assignments) (rest : Str) :
    dmlOf (insertSql entity built ++ rest) = some .insert := by
  unfold insertSql
  rw [List.append_assoc, List.append_assoc, dmlOf_insert]

theorem keyedSql_dml (entity : EdmEntity) (key : EdmProperty) (update : Bool) (built : Assignments) (rest : Str) :
    dmlOf (keyedSql entity key update built ++ rest) = some (if update then .update else .delete) := by
  unfold keyedSql
  cases update with
  | true => simpa only [List.append_assoc, ite_true] using dmlOf_update _
  | false => simpa only [List.append_assoc, Bool.false_eq_true, ite_false] using dmlOf_delete _

theorem planWrite_dml {read : BodyReader} {request : HttpRequest} {entity : EdmEntity} {keys : List Str} {plan : WritePlan}
    (planned : planWrite read request entity keys = .ok plan) : dmlOf plan.sql = some (dmlFor request) := by
  obtain ⟨key, built, -, -, -, rfl⟩ := planWrite_ok planned
  unfold dmlFor
  split
  next => exact insertSql_dml entity built _
  next =>
    rw [keyedSql_dml]
    simp

/-- What a run of the transaction's block leaves: one changed row that is
committed, or the table of the beginning. -/
def Settled (dml : Dml) (success : Nat) (before after : Store) (outcome : Outcome) : Prop :=
  if outcome.committed then
    (∃ response, outcome.result = .ok response ∧ response.status = success) ∧ Affects dml 1 before.table after.table
  else after.table = before.table ∧ Failed outcome.result

theorem Settled.abandoned {dml : Dml} {success : Nat} {before after : Store} (kept : after.table = before.table)
    {response : HttpResponse} (error : 400 ≤ response.status) : Settled dml success before after (abandoned response) :=
  ⟨kept, error⟩

theorem Settled.refused {dml : Dml} {success status : Nat} {before after : Store} (kept : after.table = before.table)
    (error : 400 ≤ status) (message : Str) :
    Settled dml success before after (DuckdbOdata.abandoned (writeError status message)) :=
  .abandoned kept error

theorem Settled.threw {dml : Dml} {success : Nat} {before after : Store} (kept : after.table = before.table) (what : Str) :
    Settled dml success before after (threw what) :=
  ⟨kept, trivial⟩

private theorem commitWith_settled {dml : Dml} {before now after : Store} {rows : List Row} {response : HttpResponse}
    {outcome : Outcome} (table : now.table = before.table) (working : now.working = some rows)
    (affected : Affects dml 1 before.table rows) (runs : Program.Runs Store.step now (commitWith response) after outcome) :
    Settled dml response.status before after outcome := by
  obtain ⟨answer, middle, stepped, runs⟩ := runs.perform
  match answer with
  | .error what =>
    obtain ⟨rfl, rfl⟩ := runs.pure
    exact .threw (stepped.trans table) what
  | .ok (.error failure) =>
    obtain ⟨rfl, rfl⟩ := runs.pure
    exact .refused (stepped.trans table) (by decide) _
  | .ok (.ok _) =>
    obtain ⟨rfl, rfl⟩ := runs.pure
    have commits : Store.controls "COMMIT".toList now after := stepped
    rw [Store.controls, if_neg (by decide), if_pos rfl] at commits
    obtain ⟨committed, open', rfl⟩ := commits
    cases working.symm.trans open'
    exact ⟨⟨response, rfl, rfl⟩, affected⟩

theorem refuses_created (entity : EdmEntity) (key : EdmProperty) (row : Row) (basePath : Str) :
    Refuses (createdResponse entity key row basePath) := by
  unfold createdResponse
  split
  · exact .writeError (by decide) _
  · exact .ok _

private theorem createdResponse_status {entity : EdmEntity} {key : EdmProperty} {row : Row} {basePath : Str}
    {response : HttpResponse} (created : createdResponse entity key row basePath = .ok response) : response.status = 201 := by
  unfold createdResponse at created
  split at created
  next => cases created
  next => cases created; rfl

private theorem finishWrite_settled {dml : Dml} {insert : Bool} {plan : WritePlan} {entity : EdmEntity} {basePath : Str}
    {row : Row} {more : List Row} {extra : Option (List Row)} {before now after : Store} {outcome : Outcome} {rows : List Row}
    (table : now.table = before.table) (working : now.working = some rows)
    (affected : more = [] → extra.getD [] = [] → Affects dml 1 before.table rows)
    (runs : Program.Runs Store.step now (finishWrite insert plan entity basePath row more extra) after outcome) :
    Settled dml (if insert then 201 else 204) before after outcome := by
  unfold finishWrite at runs
  split at runs
  next =>
    obtain ⟨rfl, rfl⟩ := runs.pure
    exact .abandoned table (by decide)
  next one =>
    simp only [not_or, not_not] at one
    have affected := affected one.1 one.2
    cases insert with
    | true =>
      rw [if_pos rfl] at runs ⊢
      split at runs
      next response refused =>
        obtain ⟨rfl, rfl⟩ := runs.pure
        exact .abandoned table (refuses_created entity plan.key row basePath response refused)
      next response created =>
        rw [← createdResponse_status created]
        exact commitWith_settled table working affected runs
    | false =>
      rw [if_neg nofun] at runs ⊢
      exact commitWith_settled table working affected runs

private theorem executes_working (before : Store) {after : Store} {dml : Dml} {sql : Str} {table : List Row}
    (planned : dmlOf sql = some dml) (prepared : before.prepared = sql) (working : before.working = some table) (executed : Store.executes before after) :
    after.table = before.table ∧ ∃ rows, after.working = some rows ∧ Affects dml after.pending.length table rows := by
  obtain ⟨done, rows, returned, known, affected, same⟩ := executed
  rw [prepared, planned] at known
  rw [working] at affected same
  cases known
  subst same
  exact ⟨rfl, rows, rfl, affected⟩

private theorem performWrite_settled (before now : Store) {dml : Dml} {insert : Bool} {plan : WritePlan}
    {entity : EdmEntity} {basePath : Str} {after : Store} {outcome : Outcome} (planned : dmlOf plan.sql = some dml) (table : now.table = before.table)
    (working : now.working = some before.table)
    (runs : Program.Runs Store.step now (performWrite insert plan entity basePath) after outcome) :
    Settled dml (if insert then 201 else 204) before after outcome := by
  obtain ⟨answer, ready, stepped, runs⟩ := runs.perform
  match answer with
  | .error what =>
    obtain ⟨rfl, rfl⟩ := runs.pure
    exact .threw (stepped.trans table) what
  | .ok (some message) =>
    obtain ⟨rfl, rfl⟩ := runs.pure
    exact .refused (stepped.trans table) (by decide) _
  | .ok none =>
  have prepares : ready = { now with prepared := plan.sql } := stepped
  subst prepares
  obtain ⟨answer, executed, stepped, runs⟩ := runs.perform
  match answer with
  | .error what =>
    obtain ⟨rfl, rfl⟩ := runs.pure
    exact .threw (Eq.trans stepped table) what
  | .ok (.error failure) =>
    obtain ⟨rfl, rfl⟩ := runs.pure
    exact .refused (Eq.trans stepped table) (by split <;> decide) _
  | .ok (.ok _) =>
  obtain ⟨kept, rows, open', affected⟩ := executes_working { now with prepared := plan.sql } planned rfl working stepped
  replace kept := kept.trans table
  obtain ⟨answer, fetched, stepped, runs⟩ := runs.perform
  match answer with
  | .error what =>
    obtain ⟨rfl, rfl⟩ := runs.pure
    exact .threw (Eq.trans stepped kept) what
  | .ok none =>
    obtain ⟨rfl, rfl⟩ := runs.pure
    obtain ⟨-, -, same⟩ := stepped
    exact .abandoned (by rw [same]; exact kept) (by decide)
  | .ok (some []) =>
    obtain ⟨rfl, rfl⟩ := runs.pure
    obtain ⟨-, -, same⟩ := stepped
    exact .abandoned (by rw [same]; exact kept) (by decide)
  | .ok (some (row :: more)) =>
  obtain ⟨first, -, same⟩ := stepped
  have keptFetched : fetched.table = before.table := by rw [same]; exact kept
  have openFetched : fetched.working = some rows := by rw [same]; exact open'
  obtain ⟨answer, final, stepped, runs⟩ := runs.perform
  match answer with
  | .error what =>
    obtain ⟨rfl, rfl⟩ := runs.pure
    exact .threw (Eq.trans stepped keptFetched) what
  | .ok extra =>
  obtain ⟨-, last, same⟩ := stepped
  refine finishWrite_settled (by rw [same]; exact keptFetched) (by rw [same]; exact openFetched) ?_ runs
  intro single none
  rw [first, single, last none] at affected
  simpa using affected

private theorem closing_kept {outcome : Outcome} {before after : Store} {result : Except Exn HttpResponse}
    (runs : Program.Runs Store.step before (closing outcome) after result) :
    after.table = before.table ∧ result = outcome.result := by
  unfold closing at runs
  split at runs
  next =>
    obtain ⟨rfl, rfl⟩ := runs.pure
    exact ⟨rfl, rfl⟩
  next =>
    obtain ⟨answer, middle, stepped, runs⟩ := runs.perform
    obtain ⟨rfl, rfl⟩ := runs.pure
    refine ⟨?_, rfl⟩
    match answer with
    | .error what => exact stepped
    | .ok (.error failure) => exact stepped
    | .ok (.ok _) =>
      have rolls : Store.controls "ROLLBACK".toList before after := stepped
      rw [Store.controls, if_neg (by decide), if_neg (by decide), if_pos rfl] at rolls
      rw [rolls]

/-- A write either fails and leaves the table as it was, or succeeds and has
changed one row, inserted, updated or deleted as the method says. -/
theorem executeWrite_atomic (read : BodyReader) (request : HttpRequest) (entity : EdmEntity) (keys : List Str) (basePath : Str)
    (before after : Store) (result : Except Exn HttpResponse)
    (runs : Program.Runs Store.step before (executeWrite read request entity keys basePath) after result) :
    (Failed result ∧ after.table = before.table) ∨
      ∃ response, result = .ok response ∧ response.status = (if request.method = "POST".toList then 201 else 204) ∧
        Affects (dmlFor request) 1 before.table after.table := by
  unfold executeWrite at runs
  split at runs
  next response refused =>
    obtain ⟨rfl, rfl⟩ := runs.pure
    exact .inl ⟨planWrite_refuses read request entity keys response refused, rfl⟩
  next plan planned =>
  obtain ⟨answer, begun, stepped, runs⟩ := runs.perform
  match answer with
  | .error what =>
    obtain ⟨rfl, rfl⟩ := runs.pure
    exact .inl ⟨trivial, stepped⟩
  | .ok (.error failure) =>
    obtain ⟨rfl, rfl⟩ := runs.pure
    exact .inl ⟨show 400 ≤ 500 by decide, stepped⟩
  | .ok (.ok _) =>
  have begins : Store.controls "BEGIN TRANSACTION".toList before begun := stepped
  rw [Store.controls, if_pos rfl] at begins
  obtain ⟨-, rfl⟩ := begins
  obtain ⟨middle, outcome, performed, closed⟩ := runs.bind
  have settled := performWrite_settled before { before with working := some before.table } (planWrite_dml planned) rfl rfl
    performed
  obtain ⟨kept, rfl⟩ := closing_kept closed
  unfold Settled at settled
  split at settled
  next =>
    obtain ⟨⟨response, same, status⟩, affected⟩ := settled
    exact .inr ⟨response, same, by simpa using status, kept ▸ affected⟩
  next => exact .inl ⟨settled.2, kept.trans settled.1⟩

private def items : EdmEntity where
  name := "items".toList
  table := "items".toList
  properties := [{ name := "id".toList, edmType := .int64, isKey := true, duckdbType := "BIGINT".toList }]
  hasKey := true

private def noRows : ResultSet := ⟨[], [], nofun⟩

theorem executeWrite_atomic_delete :
    ∃ result after, Program.Runs Store.step { table := [[.integer 1]] }
        (executeWrite (fun _ => none) { method := "DELETE".toList } items ["1".toList] []) after result ∧
      ((Failed result ∧ after.table = [[.integer 1]]) ∨
        ∃ response, result = .ok response ∧ response.status = 204 ∧ Affects .delete 1 [[.integer 1]] after.table) := by
  let sql := "DELETE FROM \"\".\"\".\"items\" WHERE \"id\" = CAST(? AS BIGINT) RETURNING \"id\"".toList
  have removed : Affects .delete 1 [[Value.integer 1]] [] := ⟨[[.integer 1]], rfl, .rfl⟩
  have runs : Program.Runs Store.step { table := [[.integer 1]] }
      (executeWrite (fun _ => none) { method := "DELETE".toList } items ["1".toList] []) { prepared := sql }
      (.ok deletedOrUpdated) := by
    have begins : Store.step { table := [[.integer 1]] } (.query "BEGIN TRANSACTION".toList) (Except.ok (Except.ok noRows))
        { table := [[.integer 1]], working := some [[.integer 1]] } := And.intro rfl rfl
    have prepares : Store.step { table := [[.integer 1]], working := some [[.integer 1]] } (.prepare sql) (Except.ok none)
        { table := [[.integer 1]], working := some [[.integer 1]], prepared := sql } := rfl
    have executes : Store.executes { table := [[.integer 1]], working := some [[.integer 1]], prepared := sql }
        { table := [[.integer 1]], working := some [], prepared := sql, pending := [[.integer 1]] } :=
      ⟨.delete, [], [[.integer 1]], rfl, removed, rfl⟩
    have executed : Store.step { table := [[.integer 1]], working := some [[.integer 1]], prepared := sql }
        (.execute [.text "1".toList]) (Except.ok (Except.ok ()))
        { table := [[.integer 1]], working := some [], prepared := sql, pending := [[.integer 1]] } := executes
    have fetches : Store.step { table := [[.integer 1]], working := some [], prepared := sql, pending := [[.integer 1]] } .fetch
        (Except.ok (some [[.integer 1]])) { table := [[.integer 1]], working := some [], prepared := sql } :=
      And.intro rfl (And.intro nofun rfl)
    have ends : Store.step { table := [[.integer 1]], working := some [], prepared := sql } .fetch (Except.ok none)
        { table := [[.integer 1]], working := some [], prepared := sql } := And.intro rfl (And.intro (fun _ => rfl) rfl)
    have commits : Store.controls "COMMIT".toList { table := [[.integer 1]], working := some [], prepared := sql }
        { prepared := sql } := ⟨[], rfl, rfl⟩
    have committed : Store.step { table := [[.integer 1]], working := some [], prepared := sql } (.query "COMMIT".toList)
        (Except.ok (Except.ok noRows)) { prepared := sql } := commits
    exact .ask begins (.ask prepares (.ask executed (.ask fetches (.ask ends (.ask committed .done)))))
  exact ⟨_, _, runs, executeWrite_atomic (fun _ => none) { method := "DELETE".toList } items ["1".toList] [] _ _ _ runs⟩

end DuckdbOdata.WriteAtomicity
