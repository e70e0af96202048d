import DuckdbOdata.Execution.Ledger
import DuckdbOdata.Proofs.WriteAlignment

/-! What writes do to the rows of a database, by their contents and in any
interleaving of requests. -/

namespace DuckdbOdata.WrittenRows
open Text FilterGrammar SqlTokens WritePlans WriteAtomicity WriteAlignment

def settingOf (cell : Cell) : Sql.Setting Value := ⟨cell.column, (Sql.lex cell.type).getD [], cell.value⟩

def changeOf : Write → Sql.Change Value
  | .insert cells => .insert (cells.map settingOf)
  | .update cells key => .update (cells.map settingOf) (settingOf key)
  | .delete key => .delete (settingOf key)

/-- A write on the table of an entity that returns the columns of its properties. -/
def statementOf (entity : EdmEntity) (write : Write) : Sql.ChangeStatement Value :=
  ⟨writePath entity, changeOf write, entity.properties.map (·.name)⟩

private theorem plain_names (names : List Str) (separator : Char) :
    ([.punct separator].intercalate (names.map fun name => [Sql.Token.ident name])).map Sql.Filled.token =
      (Sql.named names separator : List Filled) := by
  rw [map_intercalate, List.map_map]
  rfl

private theorem plain_columnLexemes (props : List EdmProperty) : plain (columnLexemes props) = Sql.named (props.map (·.name)) ',' := by
  rw [← plain_names]
  unfold plain columnLexemes
  rw [tokensOf_intercalate, List.map_map, List.map_map]
  rfl

private theorem castCell_tokens (cell : Cell) : castCell cell = Sql.castTokens (settingOf cell).cast := by
  simp [castCell, plain, Sql.castTokens, Sql.Setting.cast, settingOf, Lexeme.tokens, Sql.word, Sql.symbol]

private theorem equalsCell_tokens (cell : Cell) : equalsCell cell = (settingOf cell).tokens := by
  unfold equalsCell
  rw [castCell_tokens]
  rfl

private theorem plain_source (keyword : String) (path : List Str) :
    plain [.source keyword.toList path] = Sql.word keyword :: Sql.named path '.' := by
  rw [← plain_names]
  simp [plain, tokensOf, Lexeme.tokens, Sql.word]

private theorem commas_tokens (items : List (List Filled)) : commas items = [Sql.symbol ','].intercalate items := rfl

private theorem columns_tokens (cells : List Cell) :
    commas (cells.map fun cell => plain [.column cell.column]) = Sql.named ((cells.map settingOf).map (·.column)) ',' := by
  rw [commas_tokens, List.map_map, Sql.named, List.map_map]
  rfl

private theorem casts_tokens (cells : List Cell) : commas (cells.map castCell) =
    [Sql.symbol ','].intercalate ((cells.map settingOf).map fun setting => Sql.castTokens setting.cast) := by
  rw [commas_tokens, List.map_map]
  exact congrArg _ (List.map_congr_left fun cell _ => castCell_tokens cell)

private theorem sets_tokens (cells : List Cell) :
    commas (cells.map equalsCell) = [Sql.symbol ','].intercalate ((cells.map settingOf).map Sql.Setting.tokens) := by
  rw [commas_tokens, List.map_map]
  exact congrArg _ (List.map_congr_left fun cell _ => equalsCell_tokens cell)

@[simp] private theorem plain_nil : plain [] = [] := rfl

private theorem plain_cons (lexeme : Lexeme) (lexemes : List Lexeme) : plain (lexeme :: lexemes) = plain [lexeme] ++ plain lexemes := by
  simp [plain]

private theorem plain_keyword (name : String) (lexemes : List Lexeme) :
    plain (.keyword name.toList :: lexemes) = Sql.word name :: plain lexemes := rfl

private theorem plain_punctuation (c : Char) (lexemes : List Lexeme) : plain (.punctuation c :: lexemes) = Sql.symbol c :: plain lexemes := rfl

private theorem plain_from (keyword : String) (path : List Str) (lexemes : List Lexeme) :
    plain (.source keyword.toList path :: lexemes) = Sql.word keyword :: (Sql.named path '.' ++ plain lexemes) := by
  rw [plain_cons, plain_source]
  rfl

private theorem body_tokens (entity : EdmEntity) (write : Write) : write.body entity = (changeOf write).tokens (writePath entity) := by
  cases write with
  | insert cells =>
    cases cells with
    | nil =>
      have same : changeOf (.insert []) = .insert [] := rfl
      rw [Write.body, same, Sql.Change.tokens]
      simp only [plain_keyword, plain_from, plain_nil, List.cons_append, List.nil_append]
    | cons cell cells =>
      have columns := columns_tokens (cell :: cells)
      have values := casts_tokens (cell :: cells)
      have same : changeOf (.insert (cell :: cells)) = .insert (settingOf cell :: cells.map settingOf) := rfl
      rw [List.map_cons (f := settingOf)] at columns values
      rw [Write.body, same, Sql.Change.tokens, columns, values]
      · simp only [plain_keyword, plain_from, plain_punctuation, plain_nil, List.append_assoc, List.cons_append, List.nil_append]
      all_goals exact List.cons_ne_nil _ _
  | update cells key =>
    rw [Write.body, sets_tokens, equalsCell_tokens, changeOf, Sql.Change.tokens]
    simp only [plain_keyword, plain_from, plain_nil, List.append_assoc, List.cons_append, List.nil_append]
  | delete key =>
    rw [Write.body, equalsCell_tokens, changeOf, Sql.Change.tokens]
    simp only [plain_keyword, plain_from, plain_nil, List.append_assoc, List.cons_append, List.nil_append]

theorem statementOf_tokens (entity : EdmEntity) (write : Write) : (statementOf entity write).tokens = write.tokens entity := by
  unfold Sql.ChangeStatement.tokens Write.tokens
  rw [body_tokens, plain_keyword, plain_columnLexemes]
  rfl

private theorem writeAssignments_some {read : BodyReader} {request : HttpRequest} {entity : EdmEntity} {insert : Bool} {built : Assignments}
    (done : writeAssignments read request entity insert true = .ok built) : takenMembers read request insert true ≠ [] := by
  intro none
  have empty := writeAssignments_ok done
  rw [none] at empty
  cases empty
  unfold writeAssignments at done
  rw [if_pos (.inr rfl)] at done
  split at done
  next => cases done
  split at done
  next => cases done
  next members shape =>
    obtain ⟨folded, added, kept⟩ := bind_ok done
    split at kept
    next => cases kept
    next changes =>
      cases kept
      exact changes ⟨rfl, rfl⟩

variable {read : BodyReader} {request : HttpRequest} {entity : EdmEntity} {keys : List Str} {plan : WritePlan}

private theorem statementOf_formed (types : WellFormedTypes entity) {write : Write} (planned : planWrite read request entity keys = .ok plan)
    (asked : Asked read request entity keys write) : (statementOf entity write).WellFormed := by
  obtain ⟨key, built, found, -, assigned, -⟩ := planWrite_ok planned
  have settled : ∀ setting ∈ write.cells.map settingOf, Sql.Balanced setting.type := by
    intro setting listed
    obtain ⟨cell, member, rfl⟩ := List.mem_map.mp listed
    obtain ⟨field, prop, given⟩ := gives_listed asked.members member
    unfold settingOf
    rw [given.type]
    exact (types prop given.visible).balanced
  have keyed : ∀ cell, write.key? = some cell → Sql.Balanced (settingOf cell).type := by
    intro cell same
    obtain ⟨prop, raw, single, -, rfl⟩ := asked.key cell same
    have visible : prop ∈ entity.properties.filter (·.isKey) := single ▸ List.mem_singleton_self prop
    exact (types prop (List.mem_of_mem_filter visible)).balanced
  have settings : (changeOf write).settings = write.cells.map settingOf := by cases write <;> rfl
  have key? : (changeOf write).key? = write.key?.map settingOf := by cases write <;> rfl
  refine ⟨List.cons_ne_nil _ _, ?_, ?_, ?_, ?_⟩
  · have some : entity.properties ≠ [] := List.ne_nil_of_mem (writeKey_mem found)
    simpa [statementOf] using some
  · exact settings ▸ settled
  · intro setting same
    obtain ⟨cell, here, rfl⟩ := Option.map_eq_some_iff.mp (key?.symm.trans same)
    exact keyed cell here
  · intro settings key same
    cases write with
    | insert cells => cases same
    | delete cell => cases same
    | update cells cell =>
      cases same
      have patch : request.method ≠ "POST".toList ∧ request.method = "PATCH".toList := by
        have kind := asked.kind
        unfold dmlFor at kind
        split at kind
        next => cases kind
        split at kind
        next post patch => exact ⟨post, patch⟩
        next => cases kind
      rw [decide_eq_false patch.1, decide_eq_true patch.2] at assigned
      have taken := writeAssignments_some assigned
      intro none
      rw [List.map_eq_nil_iff.mp none] at asked
      exact taken (List.forall₂_nil_right_iff.mp asked.members)

/-- The prepared statement of a write is read as the write that its request asks for. -/
theorem planWrite_reads (types : WellFormedTypes entity) (free : FreeTypes entity) (planned : planWrite read request entity keys = .ok plan) :
    ∃ write, Asked read request entity keys write ∧ Sql.readPrepared plan.sql plan.parameters = some (statementOf entity write) := by
  obtain ⟨write, asked, tokens, lexed, -, filled⟩ := planWrite_means types free planned
  refine ⟨write, asked, ?_⟩
  unfold Sql.readPrepared
  rw [lexed, Option.bind_some, filled, Option.bind_some, ← statementOf_tokens]
  exact Sql.parseChange_tokens (statementOf_formed types planned asked)

variable {Record : Type} {changer : Sql.Changer Record Value Row} {basePath : Str}

/-- The changes that a program has committed so far. -/
abbrev Log (Record : Type) := List (List Str × Sql.RowChange Record)

/-- A call of a request: the tables that it finds are among those it may see. -/
abbrev Step (changer : Sql.Changer Record Value Row) (sees : Log Record → Sql.Tables Record → Prop) :=
  Interleaving.Alone (DbConnection.call changer) sees

/-- The response to a write that returned a row. -/
def Responds (entity : EdmEntity) (insert : Bool) (key : EdmProperty) (basePath : Str) (row : Row) (response : HttpResponse) : Prop :=
  if insert then createdResponse entity key row basePath = .ok response else response = deletedOrUpdated

/-- The block of the transaction has committed one change, which its statement asked
for, or nothing. -/
def Settles (changer : Sql.Changer Record Value Row) (entity : EdmEntity) (insert : Bool) (key : EdmProperty) (basePath : Str)
    (statement : Sql.ChangeStatement Value) (began : Sql.Tables Record) (before after : Log Record) (outcome : Outcome) : Prop :=
  if outcome.committed then ∃ change row response, statement.Single changer (began statement.target) change row ∧
    after = before ++ [(statement.target, change)] ∧ outcome.result = .ok response ∧ Responds entity insert key basePath row response
  else after = before ∧ Failed outcome.result

section Transaction

variable {sees : Log Record → Sql.Tables Record → Prop} {insert : Bool} {statement : Sql.ChangeStatement Value} {began : Sql.Tables Record}
  {before : Log Record} {now after : DbConnection Record × Log Record} {outcome : Outcome}

private theorem settles_abandoned {key : EdmProperty} (kept : after.2 = before) {response : HttpResponse} (error : 400 ≤ response.status) :
    Settles changer entity insert key basePath statement began before after.2 (abandoned response) := ⟨kept, error⟩

private theorem settles_refused {key : EdmProperty} {status : Nat} (kept : after.2 = before) (error : 400 ≤ status) (message : Str) :
    Settles changer entity insert key basePath statement began before after.2 (abandoned (writeError status message)) :=
  settles_abandoned kept error

private theorem settles_threw {key : EdmProperty} (kept : after.2 = before) (what : Str) :
    Settles changer entity insert key basePath statement began before after.2 (threw what) := ⟨kept, trivial⟩

private theorem step_silent {call : DbCall} {answer : call.Answer} (stepped : Step changer sees now call answer after)
    (silent : ∀ tables effects, DbConnection.call changer tables now.1 call answer effects after.1 → effects = []) : after.2 = now.2 := by
  obtain ⟨tables, effects, -, called, same⟩ := stepped
  rw [same, silent tables effects called, List.append_nil]

private theorem commitWith_settles {key : EdmProperty} {change : Sql.RowChange Record} {row : Row} {response : HttpResponse}
    (log : now.2 = before) (open' : now.1.transaction = some (began, [(statement.target, change)]))
    (single : statement.Single changer (began statement.target) change row) (responds : Responds entity insert key basePath row response)
    (runs : Program.Runs (Step changer sees) now (commitWith response) after outcome) :
    Settles changer entity insert key basePath statement began before after.2 outcome := by
  obtain ⟨answer, middle, stepped, runs⟩ := runs.perform
  match answer with
  | .error what =>
    obtain ⟨rfl, rfl⟩ := runs.pure
    exact settles_threw ((step_silent stepped fun _ _ same => same).trans log) what
  | .ok (.error failure) =>
    obtain ⟨rfl, rfl⟩ := runs.pure
    exact settles_refused ((step_silent stepped fun _ _ same => same).trans log) (by decide) _
  | .ok (.ok _) =>
    obtain ⟨rfl, rfl⟩ := runs.pure
    obtain ⟨tables, effects, -, commits, same⟩ := stepped
    have commits : DbConnection.queries "COMMIT".toList tables now.1 effects after.1 := commits
    rw [DbConnection.queries, if_neg (by decide), if_pos rfl] at commits
    obtain ⟨started, found, -⟩ := commits
    cases open'.symm.trans found
    exact ⟨change, row, response, single, by rw [same, log], rfl, responds⟩

private theorem finishWrite_settles {row : Row} {more : List Row} {extra : Option (List Row)} {changes : List (Sql.RowChange Record)}
    (log : now.2 = before) (open' : now.1.transaction = some (began, changes.map fun change => (statement.target, change)))
    (performs : more = [] → extra.getD [] = [] → statement.Performs changer (began statement.target) changes [row])
    (runs : Program.Runs (Step changer sees) now (finishWrite insert plan entity basePath row more extra) after outcome) :
    Settles changer entity insert plan.key basePath statement began before after.2 outcome := by
  unfold finishWrite at runs
  split at runs
  next =>
    obtain ⟨rfl, rfl⟩ := runs.pure
    exact settles_abandoned log (by decide)
  next one =>
    simp only [not_or, not_not] at one
    obtain ⟨change, rfl, single⟩ := (performs one.1 one.2).single
    cases insert with
    | true =>
      rw [if_pos rfl] at runs
      split at runs
      next response refused =>
        obtain ⟨rfl, rfl⟩ := runs.pure
        exact settles_abandoned log (refuses_created entity plan.key row basePath response refused)
      next response created =>
        have responds : Responds entity true plan.key basePath row response := (if_pos rfl).mpr created
        exact commitWith_settles log open' single responds runs
    | false =>
      rw [if_neg nofun] at runs
      exact commitWith_settles log open' single rfl runs

private theorem executes_changes (now : DbConnection Record × Log Record) {values : List Value}
    (planned : Sql.readPrepared now.1.prepared values = some statement)
    (open' : now.1.transaction = some (began, [])) {tables : Sql.Tables Record} {effects : Log Record}
    (executed : DbConnection.executes changer values tables now.1 effects after.1) :
    effects = [] ∧ ∃ changes, statement.Performs changer (began statement.target) changes after.1.pending ∧
      after.1.transaction = some (began, changes.map fun change => (statement.target, change)) := by
  obtain ⟨changes, -, executed⟩ := executed statement planned
  rw [open'] at executed
  obtain ⟨seen, saw, performs, silent, transaction⟩ := executed
  cases saw
  exact ⟨silent, changes, performs, transaction⟩

private theorem fetched_silent {chunk : Option (List Row)} (stepped : Step changer sees now .fetch (Except.ok chunk) after) :
    after.2 = now.2 ∧ now.1.pending = chunk.getD [] ++ after.1.pending ∧ (chunk.getD [] = [] → now.1.pending = []) ∧
      after.1.transaction = now.1.transaction := by
  obtain ⟨tables, effects, -, ⟨silent, left, last, same⟩, log⟩ := stepped
  subst silent
  rw [List.append_nil] at log
  exact ⟨log, left, last, by rw [same]⟩

private theorem performWrite_settles (planned : Sql.readPrepared plan.sql plan.parameters = some statement) (log : now.2 = before)
    (open' : now.1.transaction = some (began, []))
    (runs : Program.Runs (Step changer sees) now (performWrite insert plan entity basePath) after outcome) :
    Settles changer entity insert plan.key basePath statement began before after.2 outcome := by
  obtain ⟨answer, ready, stepped, runs⟩ := runs.perform
  match answer with
  | .error what =>
    obtain ⟨rfl, rfl⟩ := runs.pure
    exact settles_threw ((step_silent stepped fun _ _ same => same).trans log) what
  | .ok (some message) =>
    obtain ⟨rfl, rfl⟩ := runs.pure
    exact settles_refused ((step_silent stepped fun _ _ same => same).trans log) (by decide) _
  | .ok none =>
  have readyLog : ready.2 = before := (step_silent stepped fun _ _ same => same.1).trans log
  obtain ⟨-, -, -, ⟨-, prepared⟩, -⟩ := stepped
  have readyOpen : ready.1.transaction = some (began, []) := by
    rw [prepared]
    exact open'
  have readyPlanned : Sql.readPrepared ready.1.prepared plan.parameters = some statement := by
    rw [prepared]
    exact planned
  obtain ⟨answer, executed, stepped, runs⟩ := runs.perform
  match answer with
  | .error what =>
    obtain ⟨rfl, rfl⟩ := runs.pure
    exact settles_threw ((step_silent stepped fun _ _ same => same).trans readyLog) what
  | .ok (.error failure) =>
    obtain ⟨rfl, rfl⟩ := runs.pure
    exact settles_refused ((step_silent stepped fun _ _ same => same).trans readyLog) (by split <;> decide) _
  | .ok (.ok _) =>
  have executedLog : executed.2 = before :=
    (step_silent stepped fun _ _ called => (executes_changes ready readyPlanned readyOpen called).1).trans readyLog
  obtain ⟨tables, effects, -, called, -⟩ := stepped
  obtain ⟨-, changes, performs, transaction⟩ := executes_changes ready readyPlanned readyOpen called
  obtain ⟨answer, fetched, stepped, runs⟩ := runs.perform
  match answer with
  | .error what =>
    obtain ⟨rfl, rfl⟩ := runs.pure
    exact settles_threw ((step_silent stepped fun _ _ same => same).trans executedLog) what
  | .ok none =>
    obtain ⟨rfl, rfl⟩ := runs.pure
    exact settles_abandoned ((fetched_silent stepped).1.trans executedLog) (by decide)
  | .ok (some []) =>
    obtain ⟨rfl, rfl⟩ := runs.pure
    exact settles_abandoned ((fetched_silent stepped).1.trans executedLog) (by decide)
  | .ok (some (row :: more)) =>
  obtain ⟨log', first, -, kept⟩ := fetched_silent stepped
  obtain ⟨answer, final, stepped, runs⟩ := runs.perform
  match answer with
  | .error what =>
    obtain ⟨rfl, rfl⟩ := runs.pure
    exact settles_threw ((step_silent stepped fun _ _ same => same).trans (log'.trans executedLog)) what
  | .ok extra =>
  obtain ⟨finalLog, -, last, finalKept⟩ := fetched_silent stepped
  refine finishWrite_settles (finalLog.trans (log'.trans executedLog)) ((finalKept.trans kept).trans transaction) ?_ runs
  intro single none
  rw [first, single, last none] at performs
  exact performs

private theorem closing_silent {result : Except Exn HttpResponse} (runs : Program.Runs (Step changer sees) now (closing outcome) after result) :
    after.2 = now.2 ∧ result = outcome.result := by
  unfold closing at runs
  split at runs
  next =>
    obtain ⟨rfl, rfl⟩ := runs.pure
    exact ⟨rfl, rfl⟩
  next =>
    obtain ⟨answer, middle, stepped, runs⟩ := runs.perform
    obtain ⟨rfl, rfl⟩ := runs.pure
    refine ⟨step_silent stepped fun tables effects called => ?_, rfl⟩
    match answer with
    | .error what => exact called
    | .ok (.error failure) => exact called
    | .ok (.ok _) =>
      have rolls : DbConnection.queries "ROLLBACK".toList tables now.1 effects after.1 := called
      rw [DbConnection.queries, if_neg (by decide), if_neg (by decide), if_pos rfl] at rolls
      exact rolls.1

end Transaction

/-- A write has committed the one change that its request asks for, on the tables as
they were when its transaction began, and answers with its row. -/
structure Wrote (changer : Sql.Changer Record Value Row) (sees : Log Record → Sql.Tables Record → Prop) (read : BodyReader)
    (request : HttpRequest) (entity : EdmEntity) (keys : List Str) (basePath : Str) (before : Log Record)
    (change : List Str × Sql.RowChange Record) (response : HttpResponse) : Prop where
  does : ∃ write began row key, Asked read request entity keys write ∧ sees before began ∧
    (statementOf entity write).Single changer (began (writePath entity)) change.2 row ∧ writeKey entity = .ok key ∧
    Responds entity (request.method = "POST".toList) key basePath row response
  target : change.1 = writePath entity

/-- A write fails without an effect, or it commits one change and succeeds. -/
theorem executeWrite_writes {sees : Log Record → Sql.Tables Record → Prop} (types : WellFormedTypes entity) (free : FreeTypes entity)
    {before after : DbConnection Record × Log Record} {result : Except Exn HttpResponse}
    (runs : Program.Runs (Step changer sees) before (executeWrite read request entity keys basePath) after result) :
    (Failed result ∧ after.2 = before.2) ∨
      ∃ change response, result = .ok response ∧ after.2 = before.2 ++ [change] ∧
        Wrote changer sees read request entity keys basePath before.2 change response := by
  unfold executeWrite at runs
  split at runs
  next response refused =>
    obtain ⟨rfl, rfl⟩ := runs.pure
    exact .inl ⟨planWrite_refuses read request entity keys response refused, rfl⟩
  next plan planned =>
  obtain ⟨answer, begun, stepped, runs⟩ := runs.perform
  match answer with
  | .error what =>
    obtain ⟨rfl, rfl⟩ := runs.pure
    exact .inl ⟨trivial, step_silent stepped fun _ _ same => same⟩
  | .ok (.error failure) =>
    obtain ⟨rfl, rfl⟩ := runs.pure
    exact .inl ⟨show 400 ≤ 500 by decide, step_silent stepped fun _ _ same => same⟩
  | .ok (.ok _) =>
  obtain ⟨began, effects, saw, begins, same⟩ := stepped
  have begins : DbConnection.queries "BEGIN TRANSACTION".toList began before.1 effects begun.1 := begins
  rw [DbConnection.queries, if_pos rfl] at begins
  obtain ⟨-, rfl, opened⟩ := begins
  obtain ⟨middle, outcome, performed, closed⟩ := runs.bind
  obtain ⟨write, asked, reads⟩ := planWrite_reads types free planned
  have settles := performWrite_settles reads (same.trans (List.append_nil _)) (by rw [opened]) performed
  obtain ⟨kept, rfl⟩ := closing_silent closed
  unfold Settles at settles
  split at settles
  next =>
    obtain ⟨change, row, response, single, log, answered, responds⟩ := settles
    obtain ⟨key, built, found, -, -, shape⟩ := planWrite_ok planned
    have keyed : plan.key = key := by
      rw [shape]
      split <;> rfl
    rw [keyed] at responds
    exact .inr ⟨_, response, answered, kept.trans log, ⟨write, began, row, key, asked, saw, single, found, responds⟩, rfl⟩
  next => exact .inl ⟨settles.2, kept.trans settles.1⟩

end DuckdbOdata.WrittenRows
