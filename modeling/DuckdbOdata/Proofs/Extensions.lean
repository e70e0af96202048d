import DuckdbOdata.Server.Extension
import DuckdbOdata.Server.ODataServer

/-! Database instances over any run of the extension's SQL functions. What
`odata_status` says and what a server demands follow from the answers that were given
at the address of the instance: an instance at the address of a dead one takes over
what that one left. -/

namespace DuckdbOdata.Extensions
open Text Instances

/-- What can be known of a server from the answers: whether it runs, where it last
listened, and the token that it last reported. -/
structure Seen where
  running : Bool := false
  address : Str := []
  token : Str := []

def observe (seen : Seen) : Report → Seen
  | .served row => ⟨true, row.listenUrl, row.authToken⟩
  | .stopped => { seen with running := false }
  | .status _ | .bound _ | .failed _ => seen

def isServed : Report → Bool
  | .served _ => true
  | _ => false

/-- What only a successful `odata_serve` changes. -/
def settled (state : Option ODataServerState) : ODataServerState :=
  let known := state.getD {}
  { known with config := { known.config with bindings := [] }, running := false, socket := none }

/-- What an instance may answer after what it has been seen to do. -/
def Truthful (seen : Seen) : Report → Prop
  | .served _ => seen.running = false
  | .status row => row.running = seen.running ∧ row.address = seen.address ∧ row.tokenRequired = decide (seen.token ≠ [])
  | .stopped | .bound _ | .failed _ => True

/-- What the commands on the bindings answer. -/
def Quiet : Report → Prop
  | .bound _ | .failed _ => True
  | .served _ | .stopped | .status _ => False

variable {state : Option ODataServerState}

private theorem serve_cases (arguments : ServeArguments) (settings : Str → Option Int) (network : Network) (bytes : Fin 16 → Fin 256)
    (state : Option ODataServerState) :
    (∃ failure, (ExtensionCall.serve arguments settings network bytes).execute state = (state, .failed failure)) ∨
      (∃ failure, (ExtensionCall.serve arguments settings network bytes).execute state = (some (state.getD {}), .failed failure)) ∨
      ∃ data endpoint, serveBind arguments settings = .ok data ∧
        startODataServer network (state.getD {}).running data.address data.basePath = .ok endpoint ∧
        (ExtensionCall.serve arguments settings network bytes).execute state =
          (some ((state.getD {}).started data (if data.tokenProvided then data.token else generateAuthToken bytes) endpoint),
            .served ⟨endpoint.listenUri, endpoint.listenUrl, if data.tokenProvided then data.token else generateAuthToken bytes⟩) := by
  cases bound : serveBind arguments settings with
  | error failure =>
    left
    refine ⟨failure, ?_⟩
    simp only [ExtensionCall.execute, bound]
  | ok data =>
    right
    cases start : startODataServer network (state.getD {}).running data.address data.basePath with
    | error failure =>
      left
      refine ⟨.duckdb ("odata_serve failed: ".toList ++ failure), ?_⟩
      simp only [ExtensionCall.execute, bound, serveExecute, start]
    | ok endpoint =>
      right
      refine ⟨data, endpoint, rfl, start, ?_⟩
      simp only [ExtensionCall.execute, bound, serveExecute, start]
      rfl

private theorem bind_cases (session : Session) (command : Command) (state : Option ODataServerState) :
    ∃ bindings report, ((ExtensionCall.bind session command).execute state = (state, report) ∨
      (ExtensionCall.bind session command).execute state =
        (some { state.getD {} with config := { (state.getD {}).config with bindings } }, report)) ∧
      Quiet report := by
  cases done : command.execute session (state.getD {}).config.bindings with
  | error failure =>
    cases fetches : command.fetchesFirst with
    | true =>
      refine ⟨(state.getD {}).config.bindings, .failed failure, .inr ?_, trivial⟩
      simp only [ExtensionCall.execute, bindingExecute, done, fetches, if_true]
    | false =>
      refine ⟨[], .failed failure, .inl ?_, trivial⟩
      simp only [ExtensionCall.execute, bindingExecute, done, fetches]
      rfl
  | ok result =>
    obtain ⟨bindings, rows⟩ := result
    refine ⟨bindings, .bound rows, .inr ?_, trivial⟩
    simp only [ExtensionCall.execute, bindingExecute, done]

private theorem started_idle {network : Network} {running : Bool} {address basePath : Str} {endpoint : Endpoint}
    (start : startODataServer network running address basePath = .ok endpoint) : running = false ∧ endpoint.listenUrl ≠ [] := by
  unfold startODataServer at start
  cases running with
  | true => cases start
  | false =>
    rw [if_neg (by decide)] at start
    split at start
    · cases start
    split at start
    · cases start
    cases start
    exact ⟨rfl, fun empty => nomatch empty⟩

private theorem Quiet.unseen {report : Report} (quiet : Quiet report) (seen : Seen) : observe seen report = seen := by
  cases report with
  | bound rows => rfl
  | failed failure => rfl
  | served row => cases quiet
  | stopped => cases quiet
  | status row => cases quiet

private theorem Quiet.truthful {report : Report} (quiet : Quiet report) (seen : Seen) : Truthful seen report := by
  cases report with
  | bound rows => trivial
  | failed failure => trivial
  | served row => cases quiet
  | stopped => cases quiet
  | status row => cases quiet

/-- Without a new server everything stays but the bindings and whether it runs. -/
theorem execute_settled (call : ExtensionCall) (other : isServed (call.execute state).2 = false) :
    settled (call.execute state).1 = settled state := by
  cases call with
  | serve arguments settings network bytes =>
    rcases serve_cases arguments settings network bytes state with ⟨failure, same⟩ | ⟨failure, same⟩ | ⟨data, endpoint, -, -, same⟩
    · rw [same]
    · rw [same]
      rfl
    · rw [same] at other
      cases other
  | stop => cases state <;> rfl
  | status => rfl
  | bind session command =>
    obtain ⟨bindings, report, same | same, -⟩ := bind_cases session command state
    · rw [same]
    · rw [same]
      rfl

/-- What an instance is, by the answers of its calls. -/
structure Known (seen : Seen) (state : Option ODataServerState) : Prop where
  running : (state.getD {}).running = seen.running
  socket : (state.getD {}).socket.isSome = seen.running
  address : (state.getD {}).listenUrl = seen.address
  token : (state.getD {}).config.token = seen.token
  -- only a server that has been started has an address of its own
  given : (state.getD {}).listenUrl = [] → (state.getD {}).startedAddress = []

theorem execute_known (seen : Seen) (state : Option ODataServerState) (call : ExtensionCall) (known : Known seen state) :
    Known (observe seen (call.execute state).2) (call.execute state).1 := by
  cases call with
  | serve arguments settings network bytes =>
    rcases serve_cases arguments settings network bytes state with ⟨failure, same⟩ | ⟨failure, same⟩ | ⟨data, endpoint, -, start, same⟩
    · rw [same]
      exact known
    · rw [same]
      exact ⟨known.running, known.socket, known.address, known.token, known.given⟩
    · rw [same]
      exact ⟨rfl, rfl, rfl, rfl, fun empty => absurd empty (started_idle start).2⟩
  | stop =>
    cases state with
    | none => exact ⟨rfl, rfl, known.address, known.token, known.given⟩
    | some state => exact ⟨rfl, rfl, known.address, known.token, known.given⟩
  | status => exact known
  | bind session command =>
    obtain ⟨bindings, report, same | same, quiet⟩ := bind_cases session command state
    · rw [same, quiet.unseen]
      exact known
    · rw [same, quiet.unseen]
      exact ⟨known.running, known.socket, known.address, known.token, known.given⟩

variable {Address : Type} [DecidableEq Address]

private theorem known_initially : Known {} none := ⟨rfl, rfl, rfl, rfl, fun _ => rfl⟩

/-- What has been seen of the servers at an address. -/
def seenAt (address : Address) (events : List (InstanceEvent Address)) : Seen := (own address (runCalls events).2).foldl observe {}

/-- The state at an address is as the answers there tell. -/
theorem runCalls_known (address : Address) (events : List (InstanceEvent Address)) :
    Known (seenAt address events) ((runCalls events).1 address) := by
  obtain ⟨state, answers⟩ := run_own ExtensionCall.execute (fun _ => none) (events.filterMap InstanceEvent.call?) address
  unfold seenAt runCalls
  rw [state, answers]
  exact single_observed execute_known _ known_initially

theorem status_known {seen : Seen} (known : Known seen state) : Truthful seen (.status (statusExecute state)) := by
  cases state with
  | none => exact ⟨known.running, known.address, congrArg (fun token => decide (token ≠ [])) known.token⟩
  | some state =>
    refine ⟨known.running, ?_, congrArg (fun token => decide (token ≠ [])) known.token⟩
    have address : state.listenUrl = seen.address := known.address
    by_cases given : state.listenUrl = []
    · exact (if_neg (not_not.mpr given)).trans ((known.given given).trans (given.symm.trans address))
    · exact (if_pos given).trans address

theorem execute_truthful {seen : Seen} (known : Known seen state) (call : ExtensionCall) : Truthful seen (call.execute state).2 := by
  cases call with
  | status => exact status_known known
  | stop => trivial
  | serve arguments settings network bytes =>
    rcases serve_cases arguments settings network bytes state with ⟨failure, same⟩ | ⟨failure, same⟩ | ⟨data, endpoint, -, start, same⟩
    · rw [same]
      trivial
    · rw [same]
      trivial
    · rw [same]
      exact known.running.symm.trans (started_idle start).1
  | bind session command =>
    obtain ⟨bindings, report, same | same, quiet⟩ := bind_cases session command state
    · rw [same]
      exact quiet.truthful seen
    · rw [same]
      exact quiet.truthful seen

/-- Whatever instances are created, called and destroyed, and in whatever order: an
instance answers in line with the earlier answers at its address, those of the
instances that had the address before it and its own. It listens exactly while these
answers say that it runs. -/
theorem calls_truthful (address : Address) (past lifetime : List (InstanceEvent Address)) :
    ∃ reports, own address (runCalls (past ++ .create address :: lifetime)).2 = own address (runCalls past).2 ++ reports ∧
      (∀ before report after, reports = before ++ report :: after → Truthful (before.foldl observe (seenAt address past)) report) ∧
      (((runCalls (past ++ .create address :: lifetime)).1 address).getD {}).socket.isSome =
        (reports.foldl observe (seenAt address past)).running := by
  have known := runCalls_known address past
  have whole : (past ++ .create address :: lifetime).filterMap InstanceEvent.call? =
      past.filterMap InstanceEvent.call? ++ lifetime.filterMap InstanceEvent.call? := List.filterMap_append
  have split := run_append ExtensionCall.execute (fun _ : Address => none) (past.filterMap InstanceEvent.call?)
    (lifetime.filterMap InstanceEvent.call?)
  obtain ⟨final, answers⟩ := run_own ExtensionCall.execute (runCalls past).1 (lifetime.filterMap InstanceEvent.call?) address
  refine ⟨(single ExtensionCall.execute ((runCalls past).1 address) (own address (lifetime.filterMap InstanceEvent.call?))).2, ?_, ?_, ?_⟩
  · rw [← answers, ← own_append]
    exact congrArg (own address) (congrArg Prod.snd ((congrArg _ whole).trans split))
  · intro before report after same
    obtain ⟨first, call, last, -, rfl, rfl⟩ := single_split same
    exact execute_truthful (single_observed execute_known first known) call
  · have state : (runCalls (past ++ .create address :: lifetime)).1 address =
        (single ExtensionCall.execute ((runCalls past).1 address) (own address (lifetime.filterMap InstanceEvent.call?))).1 :=
      (congrFun (congrArg Prod.fst ((congrArg _ whole).trans split)) address).trans final
    rw [state]
    exact (single_observed execute_known _ known).socket

theorem single_settled {calls : List ExtensionCall} (unserved : ∀ report ∈ (single ExtensionCall.execute state calls).2, isServed report = false) :
    settled (single ExtensionCall.execute state calls).1 = settled state := by
  induction calls generalizing state with
  | nil => rfl
  | cons call calls ih =>
    have later := ih fun report member => unserved report (List.mem_cons_of_mem _ member)
    exact later.trans (execute_settled call (unserved _ List.mem_cons_self))

private theorem own_around {address : Address} {past later : List (InstanceEvent Address)} {call : ExtensionCall} {report : Report}
    {rest : List (Address × Report)} (run : (runCalls (past ++ .call address call :: later)).2 = (runCalls past).2 ++ (address, report) :: rest) :
    ∃ before, (before : Option ODataServerState) = (runCalls past).1 address ∧ (call.execute before).2 = report ∧
      (single ExtensionCall.execute (call.execute before).1 (own address (later.filterMap InstanceEvent.call?))).2 = own address rest ∧
      (runCalls (past ++ .call address call :: later)).1 address =
        (single ExtensionCall.execute (call.execute before).1 (own address (later.filterMap InstanceEvent.call?))).1 := by
  have whole : (past ++ .call address call :: later).filterMap InstanceEvent.call? =
      past.filterMap InstanceEvent.call? ++ (address, call) :: later.filterMap InstanceEvent.call? := List.filterMap_append
  obtain ⟨earlier, answered⟩ := run_own ExtensionCall.execute (fun _ => none) (past.filterMap InstanceEvent.call?) address
  obtain ⟨final, answers⟩ := run_own ExtensionCall.execute (fun _ => none) ((past ++ .call address call :: later).filterMap InstanceEvent.call?) address
  unfold runCalls at run ⊢
  rw [whole] at final answers run ⊢
  rw [own_append, own_same, single_append] at final answers
  have same := (congrArg (own address) run).symm.trans answers
  rw [own_append, own_same] at same
  obtain ⟨head, tail⟩ := List.cons.inj (List.append_cancel_left (answered ▸ same))
  exact ⟨_, earlier.symm, head.symm, tail.symm, final⟩

private theorem unauthorized_request {read : BodyReader} {config : ServerState} {catalog : Catalog} {request : HttpRequest}
    (guarded : config.token ≠ []) (wrong : checkBearerToken (request.getHeader "Authorization".toList) config.token = false) :
    handleODataRequest read config catalog request =
      respond (makeError 401 "Unauthorized" "missing or invalid bearer token".toList) := by
  have refused : rejected config request = some (makeError 401 "Unauthorized" "missing or invalid bearer token".toList) :=
    if_pos ⟨guarded, wrong⟩
  unfold handleODataRequest
  rw [refused]

private theorem readOnly_request {read : BodyReader} {config : ServerState} {catalog : Catalog} {request : HttpRequest}
    (readOnly : config.readOnly = true) (method : request.method ≠ "GET".toList) :
    ∃ response, handleODataRequest read config catalog request = respond response ∧ response.status ∈ [401, 405] := by
  by_cases wrong : config.token ≠ [] ∧ checkBearerToken (request.getHeader "Authorization".toList) config.token = false
  · exact ⟨_, unauthorized_request wrong.1 wrong.2, List.mem_cons_self⟩
  · have refused : rejected config request = some (makeError 405 "MethodNotAllowed" "write method disabled or unsupported".toList) :=
      (if_neg wrong).trans (if_pos ⟨method, .inr readOnly⟩)
    refine ⟨makeError 405 "MethodNotAllowed" "write method disabled or unsupported".toList, ?_, List.mem_cons_of_mem _ List.mem_cons_self⟩
    unfold handleODataRequest
    rw [refused]

/-- A server that is started without a token demands the one it reports from every
request, and keeps the settings of its start, until another one is started at the
address of its instance, be it by a later instance. -/
theorem default_guarded (address : Address) (past later : List (InstanceEvent Address)) (arguments : ServeArguments)
    (settings : Str → Option Int) (network : Network) (bytes : Fin 16 → Fin 256) (row : ServeRow) (rest : List (Address × Report))
    (untold : arguments.token = none)
    (run : (runCalls (past ++ .call address (.serve arguments settings network bytes) :: later)).2 =
      (runCalls past).2 ++ (address, .served row) :: rest)
    (unserved : ∀ report ∈ own address rest, isServed report = false) :
    ∃ state endpoint, (runCalls (past ++ .call address (.serve arguments settings network bytes) :: later)).1 address = some state ∧
      startODataServer network false ((arguments.address.map valueText).getD []) ((arguments.basePath.map valueText).getD []) = .ok endpoint ∧
      row.listenUrl = endpoint.listenUrl ∧ row.listenUri = endpoint.listenUri ∧
      row.authToken.length = 32 ∧ (∀ c ∈ row.authToken, c ∈ "0123456789ABCDEF".toList) ∧
      settled (some state) = {
        config := {
          basePath := endpoint.basePath
          token := row.authToken
          readOnly := (arguments.readOnly.bind id).getD true
          maxTop := (settings "odata_max_top".toList).getD 10000
          maxFilterDepth := (settings "odata_max_filter_depth".toList).getD 64
          maxResponseBytes := (settings "odata_max_response_bytes".toList).getD 104857600
          pageSize := (settings "odata_page_size".toList).getD 0
          maxConcurrentQueries := (settings "odata_max_concurrent_queries".toList).getD 0 }
        host := endpoint.host
        port := endpoint.port
        queryTimeoutMs := (settings "odata_query_timeout_ms".toList).getD 0
        startedAddress := endpoint.startedAddress
        listenUri := endpoint.listenUri
        listenUrl := endpoint.listenUrl } ∧
      ∀ read catalog request,
        (checkBearerToken (request.getHeader "Authorization".toList) row.authToken = false →
          handleODataRequest read state.config catalog request =
            respond (makeError 401 "Unauthorized" "missing or invalid bearer token".toList)) ∧
        (arguments.readOnly = none → request.method ≠ "GET".toList → ∃ response,
          handleODataRequest read state.config catalog request = respond response ∧ response.status ∈ [401, 405]) := by
  obtain ⟨before, -, report, tail, final⟩ := own_around run
  rcases serve_cases arguments settings network bytes before with ⟨failure, same⟩ | ⟨failure, same⟩ | ⟨data, endpoint, bound, start, same⟩
  · rw [same] at report
    cases report
  · rw [same] at report
    cases report
  rw [same] at report tail final
  have kept := single_settled fun report member => unserved report (tail ▸ member)
  rw [← final] at kept
  unfold serveBind at bound
  split at bound
  · cases bound
  cases bound
  have reported : row = ⟨endpoint.listenUri, endpoint.listenUrl, generateAuthToken bytes⟩ := by
    rw [untold] at report
    exact (Report.served.inj report).symm
  have long : row.authToken.length = 32 := reported ▸ generateAuthToken_length bytes
  have token : (settled ((runCalls (past ++ .call address (.serve arguments settings network bytes) :: later)).1 address)).config.token =
      row.authToken := by
    rw [kept, untold, reported]
    rfl
  cases found : (runCalls (past ++ .call address (.serve arguments settings network bytes) :: later)).1 address with
  | none =>
    rw [found] at token
    rw [← token] at long
    cases long
  | some state =>
    rw [found] at token kept
    have config : state.config.token = row.authToken := token
    rw [(started_idle start).1] at start
    refine ⟨state, endpoint, rfl, start, by rw [reported], by rw [reported], long, reported ▸ generateAuthToken_digits bytes, ?_, ?_⟩
    · rw [kept, untold, reported]
      rfl
    · intro read catalog request
      refine ⟨fun wrong => ?_, fun defaulted method => ?_⟩
      · apply unauthorized_request
        · rw [config]
          exact List.ne_nil_of_length_pos (long ▸ Nat.zero_lt_succ 31)
        · rw [config]
          exact wrong
      · apply readOnly_request _ method
        have readOnly := congrArg (fun known : ODataServerState => known.config.readOnly) kept
        rw [defaulted] at readOnly
        exact readOnly

private def lastFree : Socket where
  port := 60001
  positive := by decide
  small := by decide
  name := some 60001
  named _ same := (Option.some.inj same).symm

/-- One port is free. -/
private def busy : Network where
  listen _ port := if port = 0 ∨ port = 60001 then some lastFree else none
  bound host port socket listening other := by
    split at listening
    next free =>
      cases listening
      exact (free.resolve_left other).symm
    next => cases listening

/-- A call that lets the token be made. -/
private def untold : ExtensionCall := .serve {} (fun _ => none) busy fun _ => 171

/-- An instance is started and destroyed; one at another address cannot start, and one
at the same address stops the server. -/
theorem default_guarded_stopped :
    ∃ state, (runCalls [.create false, .call false .status, .create true, .call true untold, .destroy true, .call false untold,
        .create true, .call true .stop, .call false .status]).1 true = some state ∧
      state.config.readOnly = true ∧ state.config.token = "ABABABABABABABABABABABABABABABAB".toList ∧ state.config.basePath = "/odata".toList := by
  obtain ⟨state, endpoint, found, start, -, -, -, -, config, -⟩ :=
    default_guarded true [.create false, .call false .status, .create true]
      [.destroy true, .call false untold, .create true, .call true .stop, .call false .status] {} (fun _ => none) busy (fun _ => 171)
      ⟨"odata:localhost".toList, "http://localhost:60001".toList, "ABABABABABABABABABABABABABABABAB".toList⟩ _ rfl rfl
      fun report member => by
        cases member with
        | head => rfl
        | tail _ member => cases member
  refine ⟨state, found, ?_, ?_, ?_⟩
  · exact congrArg (fun known : ODataServerState => known.config.readOnly) config
  · exact congrArg (fun known : ODataServerState => known.config.token) config
  · cases start
    exact congrArg (fun known : ODataServerState => known.config.basePath) config

end DuckdbOdata.Extensions
