import DuckdbOdata.Proofs.SqlStatements
import DuckdbOdata.Server.ODataServer

/-! Which statements a request runs: those compiled for the entity it names, and
the transaction control of a write. -/

namespace DuckdbOdata.HandlerCalls
open Text FilterGrammar SqlTokens

def controlStatements : List Str := ["BEGIN TRANSACTION", "COMMIT", "ROLLBACK"].map String.toList

/-- A call whose statement is allowed. -/
def CallKeeps (allowed : Str → Prop) : DbCall → Prop
  | .query sql => sql ∈ controlStatements ∨ allowed sql
  | .prepare sql => allowed sql
  | .execute _ | .fetch => True

/-- Every statement the program runs is allowed. -/
def Keeps (allowed : Str → Prop) (program : DbProgram α) : Prop := program.Safe (CallKeeps allowed) fun _ => True

/-- Every statement compiled for the entity is allowed. -/
structure Statements (allowed : Str → Prop) (entity : EdmEntity) : Prop where
  reads : ∀ (statement : Statement) {compiled : CompiledQuery}, statement.compile entity = .ok compiled → allowed compiled.sql
  writes : ∀ {read : BodyReader} {request : HttpRequest} {keys : List Str} {plan : WritePlan},
    planWrite read request entity keys = .ok plan → allowed plan.sql

variable {allowed : Str → Prop} {entity : EdmEntity}

theorem Keeps.done (value : α) : Keeps allowed (return value) := trivial

theorem Keeps.bind {first : DbProgram α} {next : α → DbProgram β} (safe : Keeps allowed first)
    (continued : ∀ value, Keeps allowed (next value)) : Keeps allowed (first >>= next) :=
  Program.Safe.bind safe fun value _ => continued value

theorem Keeps.call (call : DbCall) {next : call.Answer → DbProgram α} (keeps : CallKeeps allowed call)
    (continued : ∀ answer, Keeps allowed (next answer)) : Keeps allowed (Program.perform call >>= next) :=
  ⟨keeps, continued⟩

private theorem keeps_catching {status : Nat} {code : String} {result : Except Exn α} {next : α → Handler}
    (continued : ∀ value, result = .ok value → Keeps allowed (next value)) :
    Keeps allowed (catching status code result next) := by
  unfold catching
  split
  next value => exact continued value rfl
  next => exact .done _
  next => exact .done _

private theorem keeps_executing {sql : Str} {next : ResultSet → Handler} (permitted : allowed sql)
    (continued : ∀ result, Keeps allowed (next result)) : Keeps allowed (executing sql next) := by
  refine .call _ (.inr permitted) fun answer => ?_
  split
  · exact .done _
  · exact .done _
  · exact continued _

private theorem keeps_finish (compiles : Statements allowed entity) (state : ServerState) (request : HttpRequest)
    (query : ODataQuery) (serverPaged : Bool) (shown : Option Value) (known : Int) (result : ResultSet) :
    Keeps allowed (finishCollection state request entity query serverPaged shown known result) := by
  unfold finishCollection
  simp only
  split
  next => exact .done _
  split
  next =>
    split
    next =>
      split
      next => exact .done _
      next compiled done =>
        refine keeps_executing (compiles.reads (.count query) done) fun more => ?_
        split
        · exact .done _
        · split <;> exact .done _
    next => exact .done _
  next => exact .done _

theorem compileStatements_ok {query : ODataQuery} {maxTop : Int} {rows : CompiledQuery} {count : Option CompiledQuery}
    (done : compileStatements query entity maxTop = .ok (rows, count)) :
    compileCollection query entity maxTop = .ok rows ∧ ∀ compiled, count = some compiled → compileCount query entity = .ok compiled := by
  obtain ⟨compiled, first, done⟩ := bind_ok done
  split at done
  next =>
    obtain ⟨counted, second, same⟩ := bind_ok done
    cases same
    exact ⟨first, fun other same => by cases same; exact second⟩
  next =>
    cases done
    exact ⟨first, nofun⟩

private theorem keeps_collection (compiles : Statements allowed entity) (state : ServerState) (request : HttpRequest)
    (parsed : ODataQuery) : Keeps allowed (collection state request entity parsed) := by
  unfold collection
  simp only
  refine keeps_catching fun statements done => ?_
  obtain ⟨rows, count⟩ := statements
  obtain ⟨first, second⟩ := compileStatements_ok done
  have permitted := compiles.reads (.collection (pagedQuery state parsed).1 state.maxTop) first
  cases count with
  | none => exact keeps_executing permitted (keeps_finish compiles state request _ _ _ _)
  | some compiled =>
    refine keeps_executing (compiles.reads (.count (pagedQuery state parsed).1) (second compiled rfl)) fun counted => ?_
    dsimp only
    split
    · exact .done _
    · exact keeps_executing permitted (keeps_finish compiles state request _ _ _ _)

private theorem keeps_keyLookup (compiles : Statements allowed entity) (state : ServerState) (query : ODataQuery)
    (keys : List Str) : Keeps allowed (keyLookup state entity query keys) := by
  unfold keyLookup
  split
  next => exact .done _
  split
  next => exact .done _
  refine keeps_catching fun compiled done => keeps_executing (compiles.reads (.byKey query keys) done) fun result => ?_
  split <;> exact .done _

/-- The calls that a write makes. -/
structure WriteCalls (permitted : DbCall → Prop) (plan : WritePlan) : Prop where
  prepares : permitted (.prepare plan.sql)
  executes : permitted (.execute plan.parameters)
  fetches : permitted .fetch
  controls : ∀ sql ∈ controlStatements, permitted (.query sql)

variable {permitted : DbCall → Prop} {plan : WritePlan}

private theorem commit_calls (calls : WriteCalls permitted plan) (response : HttpResponse) :
    (commitWith response).Safe permitted fun _ => True := by
  refine ⟨calls.controls _ (by simp [controlStatements]), fun answer => ?_⟩
  dsimp only [Program.bind]
  split <;> trivial

private theorem perform_calls (calls : WriteCalls permitted plan) (insert : Bool) (basePath : Str) :
    (performWrite insert plan entity basePath).Safe permitted fun _ => True := by
  refine ⟨calls.prepares, fun prepared => ?_⟩
  dsimp only [Program.bind]
  split
  next => trivial
  next => trivial
  refine ⟨calls.executes, fun executed => ?_⟩
  dsimp only [Program.bind]
  split
  next => trivial
  next => trivial
  refine ⟨calls.fetches, fun fetched => ?_⟩
  dsimp only [Program.bind]
  split
  next => trivial
  next => trivial
  next => trivial
  refine ⟨calls.fetches, fun extra => ?_⟩
  dsimp only [Program.bind]
  split
  next => trivial
  unfold finishWrite
  split
  next => trivial
  split
  next =>
    split
    · trivial
    · exact commit_calls calls _
  next => exact commit_calls calls _

/-- A planned write prepares and executes its plan, and controls the transaction. -/
theorem executeWrite_calls (read : BodyReader) (request : HttpRequest) (keys : List Str) (basePath : Str)
    (planned : ∀ plan, planWrite read request entity keys = .ok plan → WriteCalls permitted plan) :
    (executeWrite read request entity keys basePath).Safe permitted fun _ => True := by
  unfold executeWrite
  split
  next => trivial
  next plan found =>
    have calls := planned plan found
    refine ⟨calls.controls _ (by simp [controlStatements]), fun begun => ?_⟩
    dsimp only [Program.bind]
    split
    next => trivial
    next => trivial
    refine .bind (perform_calls calls _ basePath) fun outcome _ => ?_
    unfold closing
    split
    next => trivial
    next => exact ⟨calls.controls _ (by simp [controlStatements]), fun _ => trivial⟩

private theorem keeps_write (compiles : Statements allowed entity) (read : BodyReader) (request : HttpRequest)
    (keys : List Str) (basePath : Str) : Keeps allowed (executeWrite read request entity keys basePath) :=
  executeWrite_calls read request keys basePath fun _ planned =>
    ⟨compiles.writes planned, trivial, trivial, fun _ listed => .inl listed⟩

theorem keeps_entityRequest {read : BodyReader} {state : ServerState} {catalog : Catalog} {request : HttpRequest} {route : Route}
    {binding : EntityBinding}
    (compiles : ∀ built, buildEntity catalog binding = .ok built → Statements allowed (applyColumnPolicy built binding)) :
    Keeps allowed (entityRequest read state catalog request route binding) := by
  unfold entityRequest
  split
  next => exact .done _
  refine keeps_catching fun query parsed => keeps_catching fun built resolved => ?_
  simp only
  split
  next => exact keeps_write (compiles built resolved) read request route.keys state.basePath
  split
  next => exact keeps_keyLookup (compiles built resolved) state query route.keys
  next => exact keeps_collection (compiles built resolved) state request query

/-- A request runs statements of the entity that it names, or none. -/
theorem keeps_request {read : BodyReader} {state : ServerState} {catalog : Catalog} {request : HttpRequest}
    (compiles : ∀ binding built, (parseRoute state request.path).entity ≠ [] →
      findBinding state.bindings (parseRoute state request.path).entity = some binding →
      buildEntity catalog binding = .ok built → Statements allowed (applyColumnPolicy built binding)) :
    Keeps allowed (handleODataRequest read state catalog request) := by
  unfold handleODataRequest
  split
  next => exact .done _
  simp only
  repeat' split
  all_goals first
    | exact .done _
    | exact keeps_entityRequest fun built => compiles _ built (by assumption) (by assumption)

end DuckdbOdata.HandlerCalls
