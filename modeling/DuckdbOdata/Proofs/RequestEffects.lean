import DuckdbOdata.Proofs.Entities
import DuckdbOdata.Proofs.WrittenRows

/-! What requests do to the rows of a database, in any interleaving of any number of
them. A request that does not write only asks SELECT statements. -/

namespace DuckdbOdata.RequestEffects
open Text FilterGrammar SqlTokens HandlerCalls WriteAtomicity WriteAlignment WrittenRows Entities

variable {read : BodyReader} {state : ServerState} {catalog : Catalog} {request : HttpRequest} {binding : EntityBinding}
  {built entity : EdmEntity}

/-- A statement that a query compiles to. -/
def Selects (entity : EdmEntity) : DbCall → Prop
  | .query sql => ∃ statement compiled, Statement.compile entity statement = .ok compiled ∧ sql = compiled.sql
  | .prepare _ | .execute _ | .fetch => False

abbrev OnlySelects (entity : EdmEntity) (program : DbProgram α) : Prop := program.Safe (Selects entity) fun _ => True

private theorem catching_selects {status : Nat} {code : String} {result : Except Exn α} {next : α → Handler}
    (continued : ∀ value, result = .ok value → OnlySelects entity (next value)) : OnlySelects entity (catching status code result next) := by
  unfold catching
  split
  next value => exact continued value rfl
  next => trivial
  next => trivial

private theorem executing_selects (statement : Statement) {compiled : CompiledQuery} (done : statement.compile entity = .ok compiled)
    {next : ResultSet → Handler} (continued : ∀ result, OnlySelects entity (next result)) :
    OnlySelects entity (executing compiled.sql next) := by
  refine ⟨⟨statement, compiled, done, rfl⟩, fun answer => ?_⟩
  dsimp only [Program.bind]
  split
  · trivial
  · trivial
  · exact continued _

private theorem finish_selects (query : ODataQuery) (serverPaged : Bool) (shown : Option Value) (known : Int) (result : ResultSet) :
    OnlySelects entity (finishCollection state request entity query serverPaged shown known result) := by
  unfold finishCollection
  simp only
  split
  next => trivial
  split
  next =>
    split
    next =>
      split
      next => trivial
      next compiled done =>
        apply executing_selects (.count query) done
        intro more
        split
        · trivial
        · split <;> trivial
    next => trivial
  next => trivial

private theorem collection_selects (query : ODataQuery) : OnlySelects entity (collection state request entity query) := by
  unfold collection
  simp only
  apply catching_selects
  rintro ⟨rows, count⟩ done
  obtain ⟨first, second⟩ := compileStatements_ok done
  cases count with
  | none => exact executing_selects (.collection (pagedQuery state query).1 state.maxTop) first (finish_selects _ _ _ _)
  | some compiled =>
    apply executing_selects (.count (pagedQuery state query).1) (second compiled rfl)
    intro counted
    dsimp only
    split
    · trivial
    · exact executing_selects (.collection (pagedQuery state query).1 state.maxTop) first (finish_selects _ _ _ _)

private theorem key_selects (query : ODataQuery) (keys : List Str) : OnlySelects entity (keyLookup state entity query keys) := by
  unfold keyLookup
  split
  next => trivial
  split
  next => trivial
  apply catching_selects
  intro compiled done
  apply executing_selects (.byKey query keys) done
  intro result
  split <;> trivial

private theorem isSelect_compiled (types : WellFormedTypes entity) {statement : Statement} {compiled : CompiledQuery}
    (done : statement.compile entity = .ok compiled) : isSelect compiled.sql := by
  have lexed := (statement.lexes types done).lex
  have single : ∀ token ∈ tokensOf (statement.lexemes entity), token ≠ .punct ';' := by
    intro token member
    obtain ⟨lexeme, listed, inside⟩ := List.mem_flatMap.mp member
    exact (allowed_single types (statement.allowed done lexeme listed) token inside).2
  obtain ⟨rest, starts⟩ : ∃ rest, tokensOf (statement.lexemes entity) = .word "SELECT".toList :: rest := by
    cases statement with
    | collection query maxTop => exact ⟨_, rfl⟩
    | count query => exact ⟨_, rfl⟩
    | byKey query keys => exact ⟨_, rfl⟩
  rw [starts] at lexed single
  exact ⟨rest, lexed, fun ends => single _ (List.mem_cons_of_mem _ ends) rfl⟩

private theorem isSelect_plain {sql : Str} (select : isSelect sql) : ∀ control ∈ controlStatements, sql ≠ control := by
  rintro control member rfl
  obtain ⟨tokens, lexed, -⟩ := select
  have commit := (Sql.lexes_word "COMMIT".toList (by decide)).lex
  have rollback := (Sql.lexes_word "ROLLBACK".toList (by decide)).lex
  have begins := (lexes_after "BEGIN".toList (by decide) (Sql.lexes_word "TRANSACTION".toList (by decide))).lex
  simp only [controlStatements, List.map_cons, List.map_nil, List.mem_cons, List.not_mem_nil, or_false] at member
  rcases member with rfl | rfl | rfl
  · cases lexed.symm.trans begins
  · cases lexed.symm.trans commit
  · cases lexed.symm.trans rollback

/-- The entities of a catalog have types that can be read. -/
def Readable (catalog : Catalog) : Prop := ∀ binding built, buildEntity catalog binding = .ok built →
  WellFormedTypes (applyColumnPolicy built binding) ∧ FreeTypes (applyColumnPolicy built binding)

/-- What a handler does with a request that it does not answer by itself. -/
inductive Serves (read : BodyReader) (state : ServerState) (catalog : Catalog) (request : HttpRequest) : Handler → Prop
  | write {binding : EntityBinding} {built : EdmEntity} : writing request → rejected state request = none →
      findBinding state.bindings (parseRoute state request.path).entity = some binding → buildEntity catalog binding = .ok built →
      Serves read state catalog request (executeWrite read request (applyColumnPolicy built binding)
        (parseRoute state request.path).keys state.basePath)
  | read {binding : EntityBinding} {built : EdmEntity} {handler : Handler} : ¬ writing request → buildEntity catalog binding = .ok built →
      OnlySelects (applyColumnPolicy built binding) handler → Serves read state catalog request handler

private theorem rejected_failed {response : HttpResponse} (refused : rejected state request = some response) : 400 ≤ response.status := by
  unfold rejected at refused
  split at refused
  next =>
    cases refused
    exact show 400 ≤ 401 by decide
  split at refused
  next =>
    cases refused
    exact show 400 ≤ 405 by decide
  next => cases refused

private theorem catching_serves {status : Nat} {code : String} {result : Except Exn α} {next : α → Handler} (error : 400 ≤ status)
    (continued : ∀ value, result = .ok value → (∃ answer, next value = .done answer ∧ (writing request → Failed answer)) ∨
      Serves read state catalog request (next value)) :
    (∃ answer, catching status code result next = .done answer ∧ (writing request → Failed answer)) ∨
      Serves read state catalog request (catching status code result next) := by
  unfold catching
  split
  next value => exact continued value rfl
  next => exact .inl ⟨_, rfl, fun _ => error⟩
  next => exact .inl ⟨_, rfl, fun _ => trivial⟩

/-- Every request is answered without a call, or it writes or reads an entity; a
write that is answered without a call is refused. -/
theorem handle_serves (read : BodyReader) (state : ServerState) (catalog : Catalog) (request : HttpRequest) :
    (∃ result, handleODataRequest read state catalog request = .done result ∧ (writing request → Failed result)) ∨
      Serves read state catalog request (handleODataRequest read state catalog request) := by
  unfold handleODataRequest
  split
  next response refused => exact .inl ⟨_, rfl, fun _ => rejected_failed refused⟩
  next permitted =>
  simp only
  split
  next => exact .inl ⟨_, rfl, fun _ => show 400 ≤ 405 by decide⟩
  next resource =>
  split
  next => exact .inl ⟨_, rfl, fun _ => show 400 ≤ 400 by decide⟩
  split
  next health => exact .inl ⟨_, rfl, fun writes => absurd ⟨writes, .inl health⟩ resource⟩
  split
  next => exact .inl ⟨_, rfl, fun _ => show 400 ≤ 404 by decide⟩
  split
  next service => exact .inl ⟨_, rfl, fun writes => absurd ⟨writes, .inr (.inl service)⟩ resource⟩
  split
  next metadata => exact .inl ⟨_, rfl, fun writes => absurd ⟨writes, .inr (.inr (.inl metadata))⟩ resource⟩
  split
  next => exact .inl ⟨_, rfl, fun _ => show 400 ≤ 404 by decide⟩
  split
  next => exact .inl ⟨_, rfl, fun _ => show 400 ≤ 404 by decide⟩
  next binding found =>
  split
  next => exact .inl ⟨_, rfl, fun _ => show 400 ≤ 503 by decide⟩
  unfold entityRequest
  split
  next => exact .inl ⟨_, rfl, fun _ => show 400 ≤ 400 by decide⟩
  apply catching_serves (by decide)
  intro query parsed
  apply catching_serves (by decide)
  intro built resolved
  right
  simp only
  split
  next writes => exact .write writes permitted found resolved
  next reads =>
  split
  next => exact .read reads resolved (key_selects query _)
  next => exact .read reads resolved (collection_selects query)

/-- A request with what its handler is given. -/
structure Client where
  read : BodyReader
  state : ServerState
  catalog : Catalog
  request : HttpRequest

def Client.handler (client : Client) : Handler := handleODataRequest client.read client.state client.catalog client.request

variable {Record : Type} {changer : Sql.Changer Record Value Row} {sees : Log Record → Sql.Tables Record → Prop} {client : Client}

/-- A request that was let through has written the entity that it names. -/
structure Effected (changer : Sql.Changer Record Value Row) (sees : Log Record → Sql.Tables Record → Prop) (client : Client)
    (before : Log Record) (change : List Str × Sql.RowChange Record) (response : HttpResponse) : Prop where
  writes : writing client.request
  permitted : rejected client.state client.request = none
  wrote : ∃ binding built, findBinding client.state.bindings (parseRoute client.state client.request.path).entity = some binding ∧
    buildEntity client.catalog binding = .ok built ∧
    Wrote changer sees client.read client.request (applyColumnPolicy built binding)
      (parseRoute client.state client.request.path).keys client.state.basePath before change response

private theorem selects_silent (types : WellFormedTypes entity) {program : DbProgram α} (selects : OnlySelects entity program)
    {before after : DbConnection Record × Log Record} {result : α} (runs : Program.Runs (Step changer sees) before program after result) :
    after.2 = before.2 := by
  apply (Program.Safe.runs (fun now => now.2 = before.2) selects ?_ runs rfl).1
  intro earlier call answer later allowed stepped same
  obtain ⟨tables, effects, -, called, log⟩ := stepped
  suffices silent : effects = [] by rw [log, silent, List.append_nil, same]
  cases call with
  | prepare sql => cases allowed
  | execute values => cases allowed
  | fetch => cases allowed
  | query sql =>
    obtain ⟨statement, compiled, done, rfl⟩ := allowed
    have select := isSelect_compiled types done
    match answer with
    | .error what => exact called
    | .ok (.error failure) => exact called
    | .ok (.ok rows) =>
      have called : DbConnection.queries compiled.sql tables earlier.1 effects later.1 := called
      have plain := isSelect_plain select
      rw [DbConnection.queries, if_neg (plain _ (by decide)), if_neg (plain _ (by decide)), if_neg (plain _ (by decide))] at called
      exact (called select).1

/-- A request without an error has the effect that it asks for, and no other one. -/
theorem request_effect (readable : Readable client.catalog) {before after : DbConnection Record × Log Record} {result : Except Exn HttpResponse}
    (runs : Program.Runs (Step changer sees) before client.handler after result) :
    (after.2 = before.2 ∧ (writing client.request → Failed result)) ∨
      ∃ change response, result = .ok response ∧ after.2 = before.2 ++ [change] ∧ Effected changer sees client before.2 change response := by
  have serves := handle_serves client.read client.state client.catalog client.request
  unfold Client.handler at runs
  rcases serves with ⟨answer, same, failed⟩ | serves
  · rw [same] at runs
    obtain ⟨rfl, rfl⟩ := runs.pure
    exact .inl ⟨rfl, failed⟩
  generalize handleODataRequest client.read client.state client.catalog client.request = handler at runs serves
  cases serves with
  | write writes permitted found resolved =>
    obtain ⟨types, free⟩ := readable _ _ resolved
    rcases executeWrite_writes types free runs with ⟨failed, kept⟩ | ⟨change, response, answered, log, wrote⟩
    · exact .inl ⟨kept, fun _ => failed⟩
    · exact .inr ⟨change, response, answered, log, writes, permitted, _, _, found, resolved, wrote⟩
  | read reads resolved selects => exact .inl ⟨selects_silent (readable _ _ resolved).1 selects runs, fun writes => absurd writes reads⟩

/-- The requests of these clients, each with a connection of its own. -/
def pool (start : Sql.Tables Record) (clients : List Client) :
    Interleaving.Pool DbCall.Answer (Except Exn HttpResponse) (Sql.Tables Record) (DbConnection Record) :=
  ⟨start, clients.map fun client => ({}, client.handler)⟩

/-- In any interleaving of requests the changes that have been committed, applied in
one order, make the tables what they are. A request that has been answered with
success has committed the one change that it asked for, and any other none. -/
theorem requests_committed {clients : List Client} (readable : ∀ client ∈ clients, Readable client.catalog) {start : Sql.Tables Record}
    {order : List Nat} {after : Interleaving.Pool DbCall.Answer (Except Exn HttpResponse) (Sql.Tables Record) (DbConnection Record)}
    (run : Run (Interleaving.Moves (DbConnection.call changer) Sql.Alters) (pool start clients) order after) :
    ∃ log : List (Nat × (List Str × Sql.RowChange Record)), Run Sql.Alters start (log.map (·.2)) after.shared ∧
      (∀ entry ∈ log, entry.1 < clients.length) ∧
      ∀ i client connection result, clients[i]? = some client → after.threads[i]? = some (connection, .done result) →
        (Instances.own i log = [] ∧ (writing client.request → Failed result)) ∨
          ∃ change response, Instances.own i log = [change] ∧ result = .ok response ∧
            Effected changer (Interleaving.Sees Sql.Alters start log i) client [] change response := by
  obtain ⟨log, final, known, alone⟩ := Interleaving.run_alone run [] .done
  rw [List.nil_append] at final alone
  refine ⟨log, final, ?_, ?_⟩
  · simpa [pool] using known
  · intro i client connection result listed ended
    have started : (pool start clients).threads[i]? = some (({} : DbConnection Record), client.handler) := by
      simp [pool, listed]
    have runs := alone i _ _ connection result started ended
    rcases request_effect (readable client (List.mem_of_getElem? listed)) runs with ⟨kept, failed⟩ | ⟨change, response, answered, kept, effected⟩
    · exact .inl ⟨kept, failed⟩
    · exact .inr ⟨change, response, kept, answered, effected⟩

private def deleting : Client where
  read _ := none
  state := { bindings := [{ name := "people".toList, table := "t".toList, configuredKeys := ["a".toList] }], readOnly := false }
  catalog := bigintColumn
  request := { method := "DELETE".toList, path := "/odata/people(1)".toList }

private def removal : WritePlan where
  sql := "DELETE FROM \"\".\"\".\"t\" WHERE \"a\" = CAST(? AS BIGINT) RETURNING \"a\"".toList
  parameters := [.text "1".toList]
  key := { name := "a".toList, edmType := .int64, isKey := true, duckdbType := "BIGINT".toList }

private theorem deleting_handler : deleting.handler = executeWrite (fun _ => none) deleting.request bigintEntity ["1".toList] "/odata".toList := rfl

private theorem deleting_planned : planWrite (fun _ => none) deleting.request bigintEntity ["1".toList] = .ok removal := rfl

private theorem deleting_readable : Readable deleting.catalog := by
  intro binding built resolved
  have types := buildEntity_types (· = "BIGINT".toList) (fun columns live row listed => by
    cases live
    cases List.mem_singleton.mp listed
    rfl) resolved
  refine ⟨fun prop member => ?_, fun prop member => ?_⟩
  · rw [types prop (applyColumnPolicy_property.mp member).1]
    exact .bigint
  · rw [types prop (applyColumnPolicy_property.mp member).1]
    decide

/-- Numbers that are their own keys. -/
private def numbered : Sql.Changer Nat Value Row where
  makes _ _ _ := False
  has _ key number := key.value = .text (Nat.repr number).toList
  sets _ _ _ _ := False
  shown _ _ number := [.integer number]

private def people : List Str := [[], [], "t".toList]

private theorem removal_performs : ∃ statement, Sql.readPrepared removal.sql removal.parameters = some statement ∧
    statement.target = people ∧ statement.Performs numbered [1] [.removed 1] [[.integer 1]] := by
  obtain ⟨types, free⟩ := deleting_readable { name := "people".toList, table := "t".toList, configuredKeys := ["a".toList] } bigintEntity rfl
  obtain ⟨write, asked, same⟩ := planWrite_reads types free deleting_planned
  have keyed := asked.key
  refine ⟨_, same, rfl, ?_⟩
  have kind := asked.kind
  cases write with
  | insert cells => cases kind
  | update cells key => cases kind
  | delete key =>
    obtain ⟨prop, raw, -, given, rfl⟩ := keyed key rfl
    cases given
    exact ⟨[1], .rfl, rfl, rfl⟩

private theorem deleting_runs : ∃ connection : DbConnection Nat, Program.Runs (Interleaving.Taken (DbConnection.call numbered) Sql.Alters)
    (fun _ => [1], {}) deleting.handler (Function.update (fun _ => [1]) people [], connection) (.ok deletedOrUpdated) := by
  let start : Sql.Tables Nat := fun _ => [1]
  let nothing : ResultSet := ⟨[], [], List.forall_mem_nil _⟩
  let began : DbConnection Nat := { transaction := some (start, []) }
  let prepared : DbConnection Nat := { began with prepared := removal.sql }
  let executed : DbConnection Nat :=
    { transaction := some (start, [(people, .removed 1)]), prepared := removal.sql, pending := [[.integer 1]] }
  let fetched : DbConnection Nat := { executed with pending := [] }
  obtain ⟨statement, reads, target, performs⟩ := removal_performs
  have begins : Interleaving.Taken (DbConnection.call numbered) Sql.Alters (start, {}) (.query "BEGIN TRANSACTION".toList)
      (Except.ok (Except.ok nothing)) (start, began) := ⟨[], And.intro rfl (And.intro rfl rfl), .done⟩
  have prepares : Interleaving.Taken (DbConnection.call numbered) Sql.Alters (start, began) (.prepare removal.sql) (Except.ok none)
      (start, prepared) := ⟨[], And.intro rfl rfl, .done⟩
  have executes : DbConnection.executes numbered removal.parameters start prepared [] executed := by
    intro other same
    cases reads.symm.trans same
    refine ⟨[.removed 1], rfl, start, .done, performs, rfl, ?_⟩
    rw [target]
    rfl
  have ran : Interleaving.Taken (DbConnection.call numbered) Sql.Alters (start, prepared) (.execute removal.parameters)
      (Except.ok (Except.ok ())) (start, executed) := ⟨[], executes, .done⟩
  have fetches : Interleaving.Taken (DbConnection.call numbered) Sql.Alters (start, executed) .fetch (Except.ok (some [[.integer 1]]))
      (start, fetched) := ⟨[], And.intro rfl (And.intro rfl (And.intro (fun empty => absurd empty (List.cons_ne_nil _ _)) rfl)), .done⟩
  have ends : Interleaving.Taken (DbConnection.call numbered) Sql.Alters (start, fetched) .fetch (Except.ok none) (start, fetched) :=
    ⟨[], And.intro rfl (And.intro rfl (And.intro (fun _ => rfl) rfl)), .done⟩
  have altered : Sql.Alters start (people, .removed 1) (Function.update start people []) := by
    refine ⟨?_, fun other apart => Function.update_of_ne apart _ _⟩
    show [1].Perm (1 :: Function.update start people [] people)
    rw [Function.update_self]
  have commits : Interleaving.Taken (DbConnection.call numbered) Sql.Alters (start, fetched) (.query "COMMIT".toList)
      (Except.ok (Except.ok nothing)) (Function.update start people [], { fetched with transaction := none }) :=
    ⟨[(people, .removed 1)], show DbConnection.queries _ _ _ _ _ from ⟨start, rfl, rfl⟩, .single altered⟩
  rw [deleting_handler]
  unfold executeWrite
  rw [deleting_planned]
  exact ⟨_, .ask begins (.ask prepares (.ask ran (.ask fetches (.ask ends (.ask commits .done)))))⟩

/-- One client deletes a row, and another one may not. -/
theorem requests_committed_deleting :
    ∃ after : Interleaving.Pool DbCall.Answer (Except Exn HttpResponse) (Sql.Tables Nat) (DbConnection Nat),
      after.shared people = [] ∧ ∃ log : List (Nat × (List Str × Sql.RowChange Nat)), Run Sql.Alters (fun _ => [1]) (log.map (·.2)) after.shared ∧
        (∀ entry ∈ log, entry.1 < 2) ∧ (Instances.own 0 log).length = 1 ∧ Instances.own 1 log = [] := by
  obtain ⟨connection, runs⟩ := deleting_runs
  let refused : Client := { deleting with state := { deleting.state with readOnly := true } }
  obtain ⟨order, run⟩ := Interleaving.run_first runs [({}, refused.handler)]
  have readable : ∀ client ∈ [deleting, refused], Readable client.catalog := by
    intro client member
    rcases List.mem_pair.mp member with rfl | rfl
    · exact deleting_readable
    · exact deleting_readable
  obtain ⟨log, final, known, effects⟩ := requests_committed readable run
  refine ⟨_, ?_, log, final, known, ?_, ?_⟩
  · show Function.update (fun _ => [1]) people [] people = []
    rw [Function.update_self]
  · rcases effects 0 deleting connection _ rfl rfl with ⟨-, failed⟩ | ⟨change, response, same, -⟩
    · exact absurd (failed (.inr (.inr rfl))) (by decide : ¬ 400 ≤ 204)
    · rw [same]
      rfl
  · rcases effects 1 refused {} _ rfl rfl with ⟨none, -⟩ | ⟨change, response, -, -, effected⟩
    · exact none
    · cases effected.permitted

end DuckdbOdata.RequestEffects
