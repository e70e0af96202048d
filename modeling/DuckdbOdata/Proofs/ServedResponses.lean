import DuckdbOdata.Proofs.ResponseWires

/-! What every response has in common that the handler gives, whatever the
request says and the database answers. -/

namespace DuckdbOdata.ServedResponses
open Text HttpMessage ResponseWires

/-- The statuses of the server's responses; all have a phrase. -/
def statuses : List Nat := [200, 201, 204, 400, 401, 404, 405, 409, 413, 415, 500, 503]

/-- The headers whose values do not depend on the request. -/
def fixedHeaders : List (Str × Str) :=
  [("Content-Type".toList, "application/json".toList),
    ("Content-Type".toList, "application/json;odata.metadata=minimal;charset=utf-8".toList),
    ("Content-Type".toList, "application/xml".toList), ("Content-Type".toList, "text/plain".toList),
    ("OData-Version".toList, "4.0".toList)]

/-- A resource below the base path. -/
def Locates (basePath : Str) (header : Str × Str) : Prop :=
  header.1 = "Location".toList ∧ ∃ path, header.2 = basePath ++ path ∧ Plain path

/-- A response of the server. Its headers are distinct, as the keys of a map. -/
structure Served (basePath : Str) (response : HttpResponse) : Prop where
  status : response.status ∈ statuses
  headers : ∀ header ∈ response.headers, header ∈ fixedHeaders ∨ Locates basePath header
  distinct : (response.headers.map (·.1)).Nodup
  empty : response.status = 204 → response.body = []

variable {basePath : Str}

private theorem Served.fixed {response : HttpResponse} (status : response.status ∈ statuses) (body : response.status ≠ 204)
    (headers : response.headers ⊆ fixedHeaders) (distinct : (response.headers.map (·.1)).Nodup) : Served basePath response :=
  ⟨status, fun _ member => .inl (headers member), distinct, fun same => absurd same body⟩

theorem served_makeError {status : Nat} (known : status ∈ statuses) (body : status ≠ 204) (code : String) (message : Str) :
    Served basePath (makeError status code message) :=
  .fixed known body (List.cons_subset.mpr ⟨by decide, List.nil_subset _⟩) (List.nodup_singleton _)

theorem served_writeError {status : Nat} (known : status ∈ statuses) (body : status ≠ 204) (message : Str) :
    Served basePath (writeError status message) := by
  have listed : [("Content-Type".toList, "application/json".toList), ("OData-Version".toList, "4.0".toList)] ⊆ fixedHeaders := by
    simp [fixedHeaders]
  exact .fixed known body listed (by decide : ["Content-Type".toList, "OData-Version".toList].Nodup)

theorem served_makeJson (body : Str) : Served basePath (makeJson 200 body) := by
  have listed : [("Content-Type".toList, "application/json;odata.metadata=minimal;charset=utf-8".toList),
      ("OData-Version".toList, "4.0".toList)] ⊆ fixedHeaders := by
    simp [fixedHeaders]
  have known : 200 ∈ statuses ∧ 200 ≠ 204 := by decide
  exact .fixed known.1 known.2 listed (by decide : ["Content-Type".toList, "OData-Version".toList].Nodup)

private theorem served_metadata (state : ServerState) (catalog : Catalog) : Served basePath (metadataResponse state catalog) := by
  have listed : [("Content-Type".toList, "application/xml".toList), ("OData-Version".toList, "4.0".toList)] ⊆ fixedHeaders := by
    simp [fixedHeaders]
  have known : 200 ∈ statuses ∧ 200 ≠ 204 := by decide
  exact .fixed known.1 known.2 listed (by decide : ["Content-Type".toList, "OData-Version".toList].Nodup)

private theorem served_updated : Served basePath deletedOrUpdated where
  status := by decide
  headers := by
    intro header member
    cases List.mem_singleton.mp member
    exact .inl (by decide)
  distinct := List.nodup_singleton _
  empty := fun _ => rfl

private theorem hexUpper_plain (n : Nat) : hexUpper n ≠ '\r' ∧ hexUpper n ≠ '\n' := by
  have table : ∀ c ∈ "0123456789ABCDEF".toList, c ≠ '\r' ∧ c ≠ '\n' := every (by decide)
  unfold hexUpper
  rw [List.getD_eq_getElem?_getD]
  cases found : "0123456789ABCDEF".toList[n]? with
  | none => exact table '0' (by decide)
  | some c => exact table c (List.mem_of_getElem? found)

/-- A percent-encoded text is plain, whatever it encodes. -/
theorem encodePath_plain (text : Str) : Plain (encodePath text) := by
  apply Plain.flatMap
  intro c _
  unfold encodePathChar
  split
  next kept =>
    have other : c ≠ '\r' ∧ c ≠ '\n' := by
      constructor
      all_goals
        rintro rfl
        exact absurd kept (by decide)
    exact Plain.cons (by decide) other
  next => exact Plain.cons (Plain.cons (Plain.cons (by decide) (hexUpper_plain _)) (hexUpper_plain _)) (by decide)

private theorem served_created {entity : EdmEntity} {key : EdmProperty} {row : Row} {response : HttpResponse}
    (created : createdResponse entity key row basePath = .ok response) : Served basePath response := by
  unfold createdResponse at created
  split at created
  next => cases created
  next =>
    have json : ("OData-Version".toList, "4.0".toList) ∈ fixedHeaders ∧ ("Content-Type".toList, "application/json".toList) ∈ fixedHeaders := by
      decide
    cases created
    refine ⟨(by decide : 201 ∈ statuses), ?_, ?_, fun same => absurd same (by decide : (201 : Nat) ≠ 204)⟩
    · intro header member
      dsimp only at member
      split at member
      next =>
        simp only [List.mem_cons, List.not_mem_nil, or_false] at member
        rcases member with rfl | rfl
        · exact .inl json.1
        · exact .inl json.2
      next value _ =>
        rcases List.mem_cons.mp member with rfl | other
        · refine .inr ⟨rfl, "/".toList ++ encodePath entity.name ++ "(".toList ++ encodePath (keyLiteral key value) ++ ")".toList, ?_, ?_⟩
          · simp [location]
          · have first : Plain "/".toList ∧ Plain "(".toList ∧ Plain ")".toList := by decide
            exact (((first.1.append (encodePath_plain _)).append first.2.1).append (encodePath_plain _)).append first.2.2
        · have kept := (List.mem_filter.mp other).1
          simp only [List.mem_cons, List.not_mem_nil, or_false] at kept
          rcases kept with rfl | rfl
          · exact .inl json.1
          · exact .inl json.2
    · dsimp only
      split
      · decide
      · exact (by decide : ["Location".toList, "OData-Version".toList, "Content-Type".toList].Nodup)

/-- Every error response of a check is one of the server's. -/
private def Errs (basePath : Str) (checked : Except HttpResponse α) : Prop := ∀ response, checked = .error response → Served basePath response

private theorem Errs.ok (value : α) : Errs basePath (.ok value) := nofun

private theorem Errs.refuse {status : Nat} (known : status ∈ statuses ∧ status ≠ 204) (message : Str) :
    Errs basePath (.error (writeError status message) : Except HttpResponse α) := by
  rintro _ ⟨rfl⟩
  exact served_writeError known.1 known.2 message

private theorem Errs.bind {checked : Except HttpResponse α} {next : α → Except HttpResponse β} (first : Errs basePath checked)
    (rest : ∀ value, Errs basePath (next value)) : Errs basePath (checked >>= next) := by
  cases checked with
  | error response => exact fun other same => first other (by cases same; rfl)
  | ok value => exact rest value

private theorem errs_member (update : Bool) (entity : EdmEntity) (built : Assignments) (member : Str × BodyValue) :
    Errs basePath (addMember update entity built member) := by
  unfold addMember
  simp only
  split
  next => exact .refuse (by decide) _
  split
  next => exact .refuse (by decide) _
  split
  next => exact .refuse (by decide) _
  split
  next => exact .refuse (by decide) _
  refine .bind ?_ fun _ => .ok _
  unfold bodyParameter
  repeat' split
  all_goals first
    | exact .ok _
    | exact .refuse (by decide) _

private theorem errs_members (update : Bool) (entity : EdmEntity) (members : List (Str × BodyValue)) (built : Assignments) :
    Errs basePath (members.foldlM (addMember update entity) built) := by
  induction members generalizing built with
  | nil => exact .ok built
  | cons member members ih =>
    rw [List.foldlM_cons]
    exact (errs_member update entity built member).bind ih

private theorem errs_assignments (read : BodyReader) (request : HttpRequest) (entity : EdmEntity) (insert update : Bool) :
    Errs basePath (writeAssignments read request entity insert update) := by
  unfold writeAssignments
  split
  next =>
    split
    next => exact .refuse (by decide) _
    split
    next => exact .refuse (by decide) _
    next =>
      refine (errs_members update entity _ _).bind fun built => ?_
      split
      · exact .refuse (by decide) _
      · exact .ok _
  next =>
    split
    · exact .refuse (by decide) _
    · exact .ok _

private theorem errs_plan (read : BodyReader) (request : HttpRequest) (entity : EdmEntity) (keys : List Str) :
    Errs basePath (planWrite read request entity keys) := by
  have key : Errs basePath (writeKey entity) := by
    unfold writeKey
    repeat' split
    all_goals first
      | exact .ok _
      | exact .refuse (by decide) _
  unfold planWrite
  simp only
  split
  next => exact .refuse (by decide) _
  split
  next => exact .refuse (by decide) _
  split
  next => exact .refuse (by decide) _
  refine key.bind fun key => (errs_assignments read request entity _ _).bind fun built => ?_
  split
  · exact .ok _
  · exact .ok _

/-- A response that the handler returns is one of the server's. -/
def Returns (basePath : Str) (result : Except Exn HttpResponse) : Prop := ∀ response, result = .ok response → Served basePath response

theorem Returns.ok {response : HttpResponse} (served : Served basePath response) : Returns basePath (.ok response) := by
  rintro _ ⟨rfl⟩
  exact served

theorem Returns.error (failure : Exn) : Returns basePath (.error failure) := nofun

/-- Every run of the program returns a response of the server. -/
abbrev Serves (basePath : Str) (program : Handler) : Prop := program.Safe (fun _ => True) (Returns basePath)

private theorem serves_respond {response : HttpResponse} (served : Served basePath response) : Serves basePath (respond response) :=
  .ok served

private theorem serves_error {status : Nat} (known : status ∈ statuses ∧ status ≠ 204) (code : String) (message : Str) :
    Serves basePath (respond (makeError status code message)) :=
  serves_respond (served_makeError known.1 known.2 code message)

private theorem serves_failure (failure : Exn) : Serves basePath (return .error failure) := Returns.error failure

private theorem serves_catching {status : Nat} (known : status ∈ statuses ∧ status ≠ 204) {code : String} {result : Except Exn α}
    {next : α → Handler} (continued : ∀ value, Serves basePath (next value)) : Serves basePath (catching status code result next) := by
  unfold catching
  split
  · exact continued _
  · exact serves_error known _ _
  · exact serves_failure _

private theorem serves_executing {sql : Str} {next : ResultSet → Handler} (continued : ∀ result, Serves basePath (next result)) :
    Serves basePath (executing sql next) := by
  refine ⟨trivial, fun answer => ?_⟩
  dsimp only [Program.bind]
  split
  · exact serves_failure _
  · exact serves_error (by decide) _ _
  · exact continued _

private theorem serves_finish (state : ServerState) (request : HttpRequest) (entity : EdmEntity) (query : ODataQuery)
    (serverPaged : Bool) (shown : Option Value) (known : Int) (result : ResultSet) :
    Serves basePath (finishCollection state request entity query serverPaged shown known result) := by
  have page : ∀ page, Serves basePath (respondPage page) := fun page => serves_respond (served_makeJson _)
  unfold finishCollection
  simp only
  split
  next => exact serves_error (by decide) _ _
  split
  next =>
    split
    next =>
      split
      next => exact serves_failure _
      next =>
        refine serves_executing fun more => ?_
        split
        · exact page _
        · split
          · exact serves_failure _
          · exact page _
    next => exact page _
  next => exact page _

private theorem serves_collection (state : ServerState) (request : HttpRequest) (entity : EdmEntity) (parsed : ODataQuery) :
    Serves basePath (collection state request entity parsed) := by
  unfold collection
  simp only
  refine serves_catching (by decide) fun statements => ?_
  obtain ⟨rows, count⟩ := statements
  cases count with
  | none => exact serves_executing (serves_finish state request entity _ _ _ _)
  | some count =>
    refine serves_executing fun counted => ?_
    dsimp only
    split
    · exact serves_failure _
    · exact serves_executing (serves_finish state request entity _ _ _ _)

private theorem serves_keyLookup (state : ServerState) (entity : EdmEntity) (query : ODataQuery) (keys : List Str) :
    Serves basePath (keyLookup state entity query keys) := by
  unfold keyLookup
  split
  next => exact serves_error (by decide) _ _
  split
  next => exact serves_error (by decide) _ _
  refine serves_catching (by decide) fun compiled => serves_executing fun result => ?_
  split
  · exact serves_error (by decide) _ _
  · exact serves_respond (served_makeJson _)

private theorem serves_commit {response : HttpResponse} (served : Served basePath response) :
    (commitWith response).Safe (fun _ => True) fun outcome => Returns basePath outcome.result := by
  refine ⟨trivial, fun answer => ?_⟩
  dsimp only [Program.bind]
  split
  · exact Returns.error _
  · exact Returns.ok (served_writeError (by decide) (by decide) _)
  · exact Returns.ok served

private theorem serves_perform (insert : Bool) (plan : WritePlan) (entity : EdmEntity) :
    (performWrite insert plan entity basePath).Safe (fun _ => True) fun outcome => Returns basePath outcome.result := by
  refine ⟨trivial, fun prepared => ?_⟩
  dsimp only [Program.bind]
  split
  next => exact Returns.error _
  next => exact Returns.ok (served_writeError (by decide) (by decide) _)
  refine ⟨trivial, fun executed => ?_⟩
  dsimp only [Program.bind]
  split
  next => exact Returns.error _
  next failure =>
    cases conflict : failure.conflict with
    | true => exact Returns.ok (served_writeError (by decide) (by decide) _)
    | false => exact Returns.ok (served_writeError (by decide) (by decide) _)
  refine ⟨trivial, fun fetched => ?_⟩
  dsimp only [Program.bind]
  have missing : Served basePath notFound := served_writeError (by decide) (by decide) _
  split
  next => exact Returns.error _
  next => exact Returns.ok missing
  next => exact Returns.ok missing
  refine ⟨trivial, fun extra => ?_⟩
  dsimp only [Program.bind]
  split
  next => exact Returns.error _
  unfold finishWrite
  split
  next => exact Returns.ok (served_writeError (by decide) (by decide) _)
  split
  next =>
    split
    next refusal refused =>
      unfold createdResponse at refused
      split at refused
      next => cases refused; exact Returns.ok (served_writeError (by decide) (by decide) _)
      next => cases refused
    next created => exact serves_commit (served_created created)
  next => exact serves_commit served_updated

private theorem serves_write (read : BodyReader) (request : HttpRequest) (entity : EdmEntity) (keys : List Str) :
    Serves basePath (executeWrite read request entity keys basePath) := by
  unfold executeWrite
  split
  next response refused => exact Returns.ok (errs_plan read request entity keys response refused)
  next plan _ =>
    refine ⟨trivial, fun begun => ?_⟩
    dsimp only [Program.bind]
    split
    next => exact Returns.error _
    next => exact Returns.ok (served_writeError (by decide) (by decide) _)
    refine .bind (serves_perform _ plan entity) fun outcome served => ?_
    unfold closing
    split
    next => exact served
    next => exact ⟨trivial, fun _ => served⟩

private theorem served_rejection {state : ServerState} {request : HttpRequest} {response : HttpResponse}
    (refused : rejected state request = some response) : Served basePath response := by
  unfold rejected at refused
  split at refused
  next => cases refused; exact served_makeError (by decide) (by decide) _ _
  split at refused
  next => cases refused; exact served_makeError (by decide) (by decide) _ _
  next => cases refused

private theorem serves_entity (read : BodyReader) (state : ServerState) (catalog : Catalog) (request : HttpRequest) (route : Route)
    (binding : EntityBinding) : Serves state.basePath (entityRequest read state catalog request route binding) := by
  unfold entityRequest
  split
  next => exact serves_error (by decide) _ _
  refine serves_catching (by decide) fun query => serves_catching (by decide) fun built => ?_
  simp only
  split
  next => exact serves_write read request _ _
  split
  next => exact serves_keyLookup state _ _ _
  next => exact serves_collection state request _ _

/-- Whatever is requested and whatever the database answers, the handler returns
one of the server's responses, or it throws. -/
theorem handler_serves (read : BodyReader) (state : ServerState) (catalog : Catalog) (request : HttpRequest) :
    Serves state.basePath (handleODataRequest read state catalog request) := by
  unfold handleODataRequest
  split
  next response refused => exact serves_respond (served_rejection refused)
  simp only
  repeat' split
  all_goals first
    | exact serves_error (by decide) _ _
    | exact serves_respond (served_makeJson _)
    | exact serves_respond (served_metadata _ _)
    | exact serves_entity read state catalog request _ _

theorem served_answered {result : Except Thrown HttpResponse} (returned : ∀ response, result = .ok response → Served basePath response) :
    Served basePath (answered result) := by
  unfold answered
  split
  next response => exact returned response rfl
  next =>
    have listed : [("Content-Type".toList, "application/json".toList)] ⊆ fixedHeaders := by
      simp [fixedHeaders]
    have known : 500 ∈ statuses ∧ 500 ≠ 204 := by decide
    exact .fixed known.1 known.2 listed (List.nodup_singleton _)

theorem served_connectionError {status : Nat} (known : status ∈ statuses ∧ status ≠ 204) (code message : String) :
    Served basePath (connectionError status code message) :=
  .fixed known.1 known.2 (List.nil_subset _) List.nodup_nil

theorem served_withContentType {response : HttpResponse} (served : Served basePath response) :
    Served basePath (withContentType response) := by
  unfold withContentType
  split
  next => exact served
  next missing =>
    refine ⟨served.status, ?_, ?_, served.empty⟩
    · intro header member
      rcases List.mem_cons.mp member with rfl | other
      · left
        split
        · exact List.mem_cons_self
        · exact List.mem_of_elem_eq_true rfl
      · exact served.headers header (List.mem_filter.mp other).1
    · have fresh : "Content-Type".toList ∉ (response.headers.filter fun header => decide (header.1 ≠ "Content-Type".toList)).map (·.1) := by
        intro inside
        obtain ⟨header, member, same⟩ := List.mem_map.mp inside
        exact of_decide_eq_true (List.mem_filter.mp member).2 same
      exact List.nodup_cons.mpr ⟨fresh, served.distinct.sublist (List.filter_sublist.map _)⟩

/-- With a plain base path, every response of the server is clean. -/
theorem served_clean {response : HttpResponse} (base : Plain basePath) (served : Served basePath response) : Clean response := by
  have fixed : ∀ header ∈ fixedHeaders, FieldOk header ∧ named "content-length" header = false ∧
      named "transfer-encoding" header = false := by
    have each : ∀ header ∈ fixedHeaders, header.1 ≠ [] ∧ (header.1.all fun c => c ≠ ':' ∧ isBlank c = false) = true ∧
        (Plain header.1 ∧ Plain header.2) ∧ named "content-length" header = false ∧ named "transfer-encoding" header = false := by
      decide
    intro header member
    obtain ⟨some, name, plain, other⟩ := each header member
    exact ⟨⟨some, every name, plain⟩, other⟩
  have found : ∀ header ∈ response.headers, FieldOk header ∧ named "content-length" header = false ∧
      named "transfer-encoding" header = false := by
    intro header member
    rcases served.headers header member with constant | ⟨name, path, value, plain⟩
    · exact fixed header constant
    · have known : "Location".toList ≠ [] ∧ ("Location".toList.all fun c => c ≠ ':' ∧ isBlank c = false) = true ∧ Plain "Location".toList ∧
          ("Location".toList.map Char.toLower == "content-length".toList) = false ∧
          ("Location".toList.map Char.toLower == "transfer-encoding".toList) = false := by
        decide
      obtain ⟨some, solid, single, other⟩ := known
      rw [← name] at some solid single other
      refine ⟨⟨some, every solid, single, ?_⟩, other⟩
      rw [value]
      exact base.append plain
  refine ⟨fun header member => (found header member).1, fun header member => (found header member).2, ?_⟩
  intro none
  apply served.empty
  have bodied : ∀ status ∈ statuses, bodiless status = true → status = 204 := by decide
  exact bodied _ served.status none

end DuckdbOdata.ServedResponses
