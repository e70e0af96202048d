import DuckdbOdata.Proofs.HandlerCalls
import DuckdbOdata.Proofs.Routes

/-! What a GET request is answered with, whatever the database answers: an error,
one of the fixed documents, an entity or a page of a collection. -/

namespace DuckdbOdata.Responses
open Text FilterGrammar HandlerCalls Routes

/-- The codes of the errors that a GET request can be answered with. -/
def errorCodes : List String :=
  ["Unauthorized", "MethodNotAllowed", "NotFound", "ServerBusy", "InvalidQuery", "EntityHasNoKey", "InvalidKey", "InternalError",
    "ResponseTooLarge"]

def Refused (response : HttpResponse) : Prop :=
  ∃ status code message, status ≠ 200 ∧ code ∈ errorCodes ∧ response = makeError status code message

theorem Refused.error {status : Nat} {code : String} {message : Str} (failed : status ≠ 200) (known : code ∈ errorCodes) :
    Refused (makeError status code message) := ⟨status, code, message, failed, known, rfl⟩

/-- The answers of a database. -/
abbrev Database := ∀ call : DbCall, call.Answer

/-- A page with the rows that the database returns for the compiled query. -/
structure Shows (state : ServerState) (entity : EdmEntity) (parsed : ODataQuery) (database : Database) (page : CollectionPage) :
    Prop where
  context : page.context = entityContextUri state entity.name false
  rows : ∃ compiled, compileCollection (pagedQuery state parsed).1 entity state.maxTop = .ok compiled ∧
    database (.query compiled.sql) = .ok (.ok page.result)
  count : ∀ value, page.count = some value → ∃ count, value = .integer count

/-- An entity with the members of the first row that the database returns. -/
def ShowsEntity (entity : EdmEntity) (parsed : ODataQuery) (keys : List Str) (database : Database)
    (members : Str) : Prop :=
  ∃ compiled result, compileByKey parsed entity keys = .ok compiled ∧ database (.query compiled.sql) = .ok (.ok result) ∧
    serializeFirstRowMembers result = some members

variable {state : ServerState} {catalog : Catalog} {request : HttpRequest} {entity : EdmEntity} {database : Database}
  {response : HttpResponse}

theorem run_respond {answer : HttpResponse} (ran : (respond answer).run database = .ok response) : response = answer :=
  (Except.ok.inj ran).symm

theorem run_failure {failure : Exn} (ran : (return .error failure : Handler).run database = .ok response) : False := by
  cases ran

private theorem run_query (database : Database) (sql : Str) :
    (DbProgram.query sql).run database = (database (.query sql) : Except Str (Except DbError ResultSet)) := rfl

theorem catching_run {status : Nat} {code : String} {result : Except Exn α} {next : α → Handler} (failed : status ≠ 200)
    (known : code ∈ errorCodes)
    (ran : (catching status code result next).run database = .ok response) :
    Refused response ∨ ∃ value, result = .ok value ∧ (next value).run database = .ok response := by
  unfold catching at ran
  split at ran
  next value => exact .inr ⟨value, rfl, ran⟩
  next => exact .inl (run_respond ran ▸ .error failed known)
  next => exact (run_failure ran).elim

theorem executing_run {sql : Str} {next : ResultSet → Handler}
    (ran : (executing sql next).run database = .ok response) :
    Refused response ∨ ∃ result, database (.query sql) = .ok (.ok result) ∧ (next result).run database = .ok response := by
  unfold executing at ran
  rw [Program.run_monad_bind, run_query] at ran
  split at ran
  next => exact (run_failure ran).elim
  next => exact .inl (run_respond ran ▸ .error (by decide) (by decide))
  next result answered => exact .inr ⟨result, answered, ran⟩

theorem executing_answered {sql : Str} {result : ResultSet} (next : ResultSet → Handler)
    (answered : database (.query sql) = .ok (.ok result)) : (executing sql next).run database = (next result).run database := by
  unfold executing
  rw [Program.run_monad_bind, run_query, answered]

/-- The count that the database gives for a query, if it gives one. -/
def counted (database : Database) (query : ODataQuery) (entity : EdmEntity) : Option Int :=
  match compileCount query entity with
  | .error _ => none
  | .ok compiled =>
    match (database (.query compiled.sql) : Except Str (Except DbError ResultSet)) with
    | .ok (.ok result) => result.firstValue.bind fun value => value.asInt64.toOption
    | _ => none

/-- The rows are a full page, and by the count there are more. -/
def Follows (state : ServerState) (entity : EdmEntity) (parsed : ODataQuery) (database : Database) (rows : Nat) : Prop :=
  (pagedQuery state parsed).2 = true ∧ (rows : Int) = (pagedQuery state parsed).1.top ∧
    ∃ count, counted database (pagedQuery state parsed).1 entity = some count ∧ currentSkip (pagedQuery state parsed).1 + rows < count

/-- What the size check compares: the members before the rows, the rows, and 16. -/
def checkedSize (page : CollectionPage) : Nat := (pageHead page.context page.count).length + (serializeRows page.result).1.length + 16

/-- The size check has passed, and there is a link exactly if a page follows. -/
structure Checked (state : ServerState) (request : HttpRequest) (entity : EdmEntity) (parsed : ODataQuery) (database : Database)
    (page : CollectionPage) : Prop where
  fits : 0 ≤ state.maxResponseBytes → (checkedSize page : Int) ≤ state.maxResponseBytes
  linked : Follows state entity parsed database page.result.rows.length →
    page.nextLink = some (nextLink request (currentSkip (pagedQuery state parsed).1 + page.result.rows.length))
  unlinked : ¬ Follows state entity parsed database page.result.rows.length → page.nextLink = none

private theorem currentSkip_nonneg (query : ODataQuery) : 0 ≤ currentSkip query := by
  unfold currentSkip
  split <;> omega

theorem counted_of {query : ODataQuery} {compiled : CompiledQuery} {result : ResultSet}
    (done : compileCount query entity = .ok compiled) (answered : database (.query compiled.sql) = .ok (.ok result)) :
    counted database query entity = result.firstValue.bind fun value => value.asInt64.toOption := by
  unfold counted
  rw [done]
  dsimp only
  rw [answered]

/-- Some count says that there are rows after the given ones. -/
def Remains (database : Database) (query : ODataQuery) (entity : EdmEntity) (rows : Nat) : Prop :=
  ∃ count, counted database query entity = some count ∧ currentSkip query + rows < count

theorem finish_run {query : ODataQuery} {serverPaged : Bool} {shown : Option Value} {known : Int} {result : ResultSet}
    (knows : 0 ≤ known → (currentSkip query + result.rows.length < known ↔ Remains database query entity result.rows.length))
    (ran : (finishCollection state request entity query serverPaged shown known result).run database = .ok response) :
    Refused response ∨ ∃ more, response = makeJson 200 (pageWith state request entity query shown result more).render ∧
      (0 ≤ state.maxResponseBytes →
        (checkedSize (pageWith state request entity query shown result more) : Int) ≤ state.maxResponseBytes) ∧
      (more = true ↔ serverPaged = true ∧ (result.rows.length : Int) = query.top ∧
        Remains database query entity result.rows.length) := by
  have skips := currentSkip_nonneg query
  unfold finishCollection at ran
  simp only at ran
  split at ran
  next => exact .inl (run_respond ran ▸ .error (by decide) (by decide))
  next small =>
  have fits : ∀ more, 0 ≤ state.maxResponseBytes →
      (checkedSize (pageWith state request entity query shown result more) : Int) ≤ state.maxResponseBytes := by
    intro more capped
    have parts : checkedSize (pageWith state request entity query shown result more) =
      (pageHead (entityContextUri state entity.name false) shown).length + (serializeRows result).1.length + 16 := rfl
    omega
  split at ran
  next full =>
    split at ran
    next unknown =>
      split at ran
      next => exact (run_failure ran).elim
      next compiled done =>
        rcases executing_run ran with refused | ⟨counting, answered, ran⟩
        · exact .inl refused
        have total := counted_of done answered
        split at ran
        next missing =>
          rw [missing, Option.bind_none] at total
          refine .inr ⟨_, run_respond ran, fits _, ?_⟩
          rw [decide_eq_true_eq]
          refine iff_of_false (fun less => by omega) ?_
          intro ⟨_, _, count, same, _⟩
          rw [total] at same
          cases same
        next value found =>
          rw [found] at total
          split at ran
          next => exact (run_failure ran).elim
          next count read =>
            rw [Option.bind_some, read] at total
            refine .inr ⟨_, run_respond ran, fits _, ?_⟩
            rw [decide_eq_true_eq]
            constructor
            · intro less
              exact ⟨full.1, full.2, count, total, less⟩
            · intro ⟨_, _, other, same, less⟩
              cases total.symm.trans same
              exact less
    next known' =>
      refine .inr ⟨_, run_respond ran, fits _, ?_⟩
      rw [decide_eq_true_eq]
      refine (knows (Int.not_lt.mp known')).trans ?_
      exact ⟨fun remains => ⟨full.1, full.2, remains⟩, fun both => both.2.2⟩
  next short =>
    refine .inr ⟨_, run_respond ran, fits _, ?_⟩
    exact iff_of_false (by decide) fun both => short ⟨both.1, both.2.1⟩

private theorem countOf_integer {counted : ResultSet} {shown : Value} {known : Int} (done : countOf counted = .ok (shown, known)) :
    ∃ count, shown = .integer count := by
  unfold countOf at done
  split at done
  next => cases done; exact ⟨_, rfl⟩
  next value found =>
    obtain ⟨count, read, same⟩ := bind_ok done
    cases same
    unfold Value.asInt64 at read
    split at read
    next => exact ⟨_, rfl⟩
    next => cases read

/-- What the count of a result says is what the database says. -/
theorem countOf_counted {query : ODataQuery} {compiled : CompiledQuery} {result : ResultSet} {shown : Value} {known : Int}
    (done : compileCount query entity = .ok compiled) (answered : database (.query compiled.sql) = .ok (.ok result))
    (counts : countOf result = .ok (shown, known)) (rows : Nat) :
    currentSkip query + rows < known ↔ Remains database query entity rows := by
  have skips := currentSkip_nonneg query
  have total := counted_of done answered
  unfold countOf at counts
  split at counts
  next missing =>
    cases counts
    rw [missing, Option.bind_none] at total
    refine iff_of_false (fun less => by omega) ?_
    intro ⟨count, same, _⟩
    rw [total] at same
    cases same
  next value found =>
    obtain ⟨count, read, same⟩ := bind_ok counts
    cases same
    rw [found, Option.bind_some, read] at total
    constructor
    · intro less
      exact ⟨known, total, less⟩
    · intro ⟨other, same, less⟩
      cases total.symm.trans same
      exact less

private theorem pageWith_checked {parsed : ODataQuery} {shown : Option Value} {result : ResultSet} {more : Bool}
    (fits : 0 ≤ state.maxResponseBytes →
      (checkedSize (pageWith state request entity (pagedQuery state parsed).1 shown result more) : Int) ≤ state.maxResponseBytes)
    (follows : more = true ↔ (pagedQuery state parsed).2 = true ∧ (result.rows.length : Int) = (pagedQuery state parsed).1.top ∧
      Remains database (pagedQuery state parsed).1 entity result.rows.length) :
    Checked state request entity parsed database (pageWith state request entity (pagedQuery state parsed).1 shown result more) where
  fits := fits
  linked page := by
    have some := follows.mpr page
    exact if_pos some
  unlinked last := by
    have none : ¬ more = true := fun more => last (follows.mp more)
    exact if_neg none

/-- A collection is answered with an error or with a page, which is checked. -/
theorem collection_page {parsed : ODataQuery} (ran : (collection state request entity parsed).run database = .ok response) :
    Refused response ∨ ∃ page, Shows state entity parsed database page ∧ Checked state request entity parsed database page ∧
      response = makeJson 200 page.render := by
  unfold collection at ran
  simp only at ran
  rcases catching_run (by decide) (by decide) ran with refused | ⟨⟨rows, count⟩, compiled, ran⟩
  · exact .inl refused
  obtain ⟨compiledRows, compiledCount⟩ := compileStatements_ok compiled
  cases count with
  | none =>
    rcases executing_run ran with refused | ⟨result, answered, ran⟩
    · exact .inl refused
    rcases finish_run (fun known => absurd known (by decide)) ran with refused | ⟨more, same, fits, follows⟩
    · exact .inl refused
    · refine .inr ⟨_, ⟨rfl, ⟨rows, compiledRows, answered⟩, ?_⟩, pageWith_checked fits follows, same⟩
      intro value present
      cases present
  | some counting =>
    rcases executing_run ran with refused | ⟨counted, total, ran⟩
    · exact .inl refused
    split at ran
    next => exact (run_failure ran).elim
    next shown known counts =>
      rcases executing_run ran with refused | ⟨result, answered, ran⟩
      · exact .inl refused
      have knows := countOf_counted (compiledCount counting rfl) total counts result.rows.length
      rcases finish_run (fun _ => knows) ran with refused | ⟨more, same, fits, follows⟩
      · exact .inl refused
      · refine .inr ⟨_, ⟨rfl, ⟨rows, compiledRows, answered⟩, ?_⟩, pageWith_checked fits follows, same⟩
        intro value present
        cases present
        exact countOf_integer counts

theorem keyLookup_run {parsed : ODataQuery} {keys : List Str}
    (ran : (keyLookup state entity parsed keys).run database = .ok response) :
    Refused response ∨ ∃ members, ShowsEntity entity parsed keys database members ∧
      response = makeJson 200 (entityBody state entity members) := by
  unfold keyLookup at ran
  split at ran
  next => exact .inl (run_respond ran ▸ .error (by decide) (by decide))
  split at ran
  next => exact .inl (run_respond ran ▸ .error (by decide) (by decide))
  rcases catching_run (by decide) (by decide) ran with refused | ⟨compiled, done, ran⟩
  · exact .inl refused
  rcases executing_run ran with refused | ⟨result, answered, ran⟩
  · exact .inl refused
  split at ran
  next => exact .inl (run_respond ran ▸ .error (by decide) (by decide))
  next members first => exact .inr ⟨members, ⟨compiled, result, done, answered, first⟩, run_respond ran⟩

/-- The documents that answer a GET request, apart from errors. -/
inductive Document (state : ServerState) (catalog : Catalog) (request : HttpRequest) (database : Database) : HttpResponse → Prop
  | health : Document state catalog request database (makeJson 200 "\x7b\"status\":\"ok\"\x7d".toList)
  | service : Document state catalog request database (makeJson 200 (serviceDocument state catalog))
  | metadata : Document state catalog request database (metadataResponse state catalog)
  | page {binding built query page} : Reaches state catalog request binding built query →
      Shows state (applyColumnPolicy built binding) query database page →
      Document state catalog request database (makeJson 200 page.render)
  | entity {binding built query keys members} : Reaches state catalog request binding built query →
      ShowsEntity (applyColumnPolicy built binding) query keys database members →
      Document state catalog request database (makeJson 200 (entityBody state (applyColumnPolicy built binding) members))

private theorem resource_of_route {path : Str} (health : (parseRoute state path).health ≠ true)
    (service : (parseRoute state path).serviceDoc ≠ true) (metadata : (parseRoute state path).metadata ≠ true) :
    (parseRoute state path).health = false ∧ (parseRoute state path).serviceDoc = false ∧ (parseRoute state path).metadata = false :=
  ⟨by simpa using health, by simpa using service, by simpa using metadata⟩

/-- A GET request is refused, answered with one of the documents that need no
entity, or it reaches an entity. -/
theorem read_reaches {read : BodyReader} (reads : request.method = "GET".toList)
    (ran : (handleODataRequest read state catalog request).run database = .ok response) :
    Refused response ∨
      ((parseRoute state request.path).health = true ∧ response = makeJson 200 "\x7b\"status\":\"ok\"\x7d".toList) ∨
      ((parseRoute state request.path).serviceDoc = true ∧ response = makeJson 200 (serviceDocument state catalog)) ∨
      ((parseRoute state request.path).metadata = true ∧ response = metadataResponse state catalog) ∨
      ∃ binding built query, Reaches state catalog request binding built query := by
  have plain : ¬ writing request := by
    unfold writing
    rw [reads]
    decide
  unfold handleODataRequest at ran
  split at ran
  next refusal rejected' =>
    have status : Refused refusal := by
      unfold rejected at rejected'
      split at rejected'
      next => cases rejected'; exact .error (by decide) (by decide)
      split at rejected'
      next => cases rejected'; exact .error (by decide) (by decide)
      next => cases rejected'
    exact .inl (run_respond ran ▸ status)
  next authorized =>
  simp only [plain, false_and, ite_false] at ran
  split at ran
  next health => exact .inr (.inl ⟨health, run_respond ran⟩)
  next health =>
  split at ran
  next => exact .inl (run_respond ran ▸ .error (by decide) (by decide))
  next exposed =>
  split at ran
  next service => exact .inr (.inr (.inl ⟨service, run_respond ran⟩))
  next service =>
  split at ran
  next metadata => exact .inr (.inr (.inr (.inl ⟨metadata, run_respond ran⟩)))
  next metadata =>
  split at ran
  next => exact .inl (run_respond ran ▸ .error (by decide) (by decide))
  next named =>
  split at ran
  next => exact .inl (run_respond ran ▸ .error (by decide) (by decide))
  next binding found =>
  split at ran
  next => exact .inl (run_respond ran ▸ .error (by decide) (by decide))
  next admitted =>
  unfold entityRequest at ran
  split at ran
  next => exact .inl (run_respond ran ▸ .error (by decide) (by decide))
  next supported =>
  rcases catching_run (by decide) (by decide) ran with refused | ⟨query, parsed, ran⟩
  · exact .inl refused
  rcases catching_run (by decide) (by decide) ran with refused | ⟨built, resolved, ran⟩
  · exact .inl refused
  exact .inr (.inr (.inr (.inr ⟨binding, built, query,
    reads, authorized, admitted, resource_of_route health service metadata, named, found, supported, parsed, resolved⟩)))

theorem read_document {read : BodyReader} (reads : request.method = "GET".toList)
    (ran : (handleODataRequest read state catalog request).run database = .ok response) :
    Refused response ∨ Document state catalog request database response := by
  rcases read_reaches reads ran with refused | ⟨-, rfl⟩ | ⟨-, rfl⟩ | ⟨-, rfl⟩ | ⟨binding, built, query, reaches⟩
  · exact .inl refused
  · exact .inr .health
  · exact .inr .service
  · exact .inr .metadata
  rw [reaches.handles] at ran
  split at ran
  next =>
    rcases keyLookup_run ran with refused | ⟨members, shows, same⟩
    · exact .inl refused
    · exact .inr (same ▸ .entity reaches shows)
  next =>
    rcases collection_page ran with refused | ⟨page, shows, -, same⟩
    · exact .inl refused
    · exact .inr (same ▸ .page reaches shows)

end DuckdbOdata.Responses
