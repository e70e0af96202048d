import DuckdbOdata.Proofs.Routes

/-! Malformed key routes. A write with one is refused; a read ignores the flag, so
that the collection or a keyed entity is returned. -/

namespace DuckdbOdata.KeyRoutes
open Text Routes

/-- The response does not depend on what the database answers, and no prepared
statement is executed: no row is returned and none is changed. -/
structure Untouched (program : Handler) : Prop where
  returned : ∀ answers other, program.run answers = program.run other
  changed : program.Safe (fun call => ∀ parameters, call ≠ .execute parameters) fun _ => True

theorem untouched_respond (response : HttpResponse) : Untouched (respond response) := ⟨fun _ _ => rfl, trivial⟩

variable {read : BodyReader} {state : ServerState} {catalog : Catalog} {request : HttpRequest}

/-- A write with a malformed key is refused. -/
theorem write_untouched (invalid : (parseRoute state request.path).invalidKey) (writes : request.method ≠ "GET".toList) :
    Untouched (handleODataRequest read state catalog request) := by
  unfold handleODataRequest
  split
  next => exact untouched_respond _
  next passed =>
    have writing : writing request := by
      by_contra other
      unfold rejected at passed
      split at passed
      next => cases passed
      next => rw [if_pos ⟨writes, .inl other⟩] at passed; cases passed
    simp only
    split
    next => exact untouched_respond _
    next =>
      rw [if_pos ⟨writing, invalid⟩]
      exact untouched_respond _

/-- Without an entity name nothing is looked up. -/
theorem nameless_untouched (nameless : (parseRoute state request.path).entity = []) :
    Untouched (handleODataRequest read state catalog request) := by
  unfold handleODataRequest
  split
  next => exact untouched_respond _
  simp only
  repeat' split
  all_goals exact untouched_respond _

/-- A server that exposes one table under the given name. -/
def exposing (basePath entity : Str) : ServerState where
  bindings := [{ name := entity, table := "t".toList }]
  basePath := basePath
  maxResponseBytes := -1

/-- A catalog in which every table has one text column. -/
def oneColumn : Catalog where
  columns _ := .ok [{ columnName := "a".toList, dataType := "VARCHAR".toList }]
  primaryKeys _ := .ok []

def oneColumnEntity (entity : Str) : EdmEntity where
  name := entity
  table := "t".toList
  properties := [{ name := "a".toList, isKey := true, duckdbType := "VARCHAR".toList }]
  hasKey := true

/-- The rows of one column. -/
def column (values : List Value) : ResultSet where
  names := ["a".toList]
  chunks := [values.map fun value => [value]]
  shaped := by simp

/-- A database in which every table holds the given values. -/
def holding (values : List Value) : (call : DbCall) → call.Answer
  | .query _ => .ok (.ok (column values))
  | .prepare _ => .ok none
  | .execute _ => .ok (.ok ())
  | .fetch => .ok none

private theorem buildEntity_oneColumn (entity : Str) :
    buildEntity oneColumn { name := entity, table := "t".toList } = .ok (oneColumnEntity entity) := rfl

/-- The read of the exposed entity that a request comes to. -/
private def readOf (basePath path : Str) (route : Route) : Handler :=
  let state := exposing basePath route.entity
  let query : ODataQuery := { entitySet := route.entity }
  if route.keys ≠ [] then keyLookup state (oneColumnEntity route.entity) query route.keys
  else collection state { method := "GET".toList, path } (oneColumnEntity route.entity) query

private theorem read_exposed (read : BodyReader) (basePath path : Str) (route : Route)
    (routed : parseRoute { basePath } path = route) (named : route.entity ≠ [])
    (plain : route.health = false ∧ route.serviceDoc = false ∧ route.metadata = false) :
    handleODataRequest read (exposing basePath route.entity) oneColumn { method := "GET".toList, path } =
      readOf basePath path route := by
  have routes : parseRoute (exposing basePath route.entity) path = route := routed
  have reaches : Reaches (exposing basePath route.entity) oneColumn { method := "GET".toList, path }
      { name := route.entity, table := "t".toList } (oneColumnEntity route.entity) { entitySet := route.entity } := {
    reads := rfl
    authorized := rfl
    admitted := by simp [exposing]
    resource := by rw [routes]; exact plain
    named := by rw [routes]; exact named
    found := by rw [routes]; simp [findBinding, exposing, sameName]
    supported := rfl
    parsed := rfl
    resolved := buildEntity_oneColumn route.entity }
  rw [reaches.handles, routes]
  rfl

private theorem collection_run (basePath entity path : Str) (values : List Value) :
    (collection (exposing basePath entity) { method := "GET".toList, path } (oneColumnEntity entity) { entitySet := entity }).run
      (holding values) = .ok (makeJson 200 (CollectionPage.render {
        context := basePath ++ "/$metadata#".toList ++ entity ++ [], result := column values })) := rfl

private theorem keyLookup_run (basePath entity key : Str) (value : Value) :
    (keyLookup (exposing basePath entity) (oneColumnEntity entity) { entitySet := entity } [key]).run (holding [value]) =
      .ok (makeJson 200 (entityBody (exposing basePath entity) (oneColumnEntity entity)
        (serializeMembers ["a".toList] [value]))) := rfl

private theorem keyLookup_missing (basePath entity key : Str) :
    (keyLookup (exposing basePath entity) (oneColumnEntity entity) { entitySet := entity } [key]).run (holding []) =
      .ok (makeError 404 "NotFound" "entity with key not found".toList) := rfl

private theorem readOf_touched (basePath path : Str) {route : Route} (single : route.keys.length ≤ 1) :
    ¬ Untouched (readOf basePath path route) := by
  intro untouched
  have same := untouched.returned (holding []) (holding [.null])
  unfold readOf at same
  match keys : route.keys, single with
  | [], _ =>
    rw [keys, if_neg (by simp), collection_run, collection_run] at same
    simp only [Except.ok.injEq, makeJson, HttpResponse.mk.injEq, true_and] at same
    have differ : (serializeRows (column [])).1 ≠ (serializeRows (column [.null])).1 := by decide
    exact differ ((List.append_right_inj _).mp ((List.append_left_inj _).mp same))
  | [key], _ =>
    rw [keys, if_pos (by simp), keyLookup_missing, keyLookup_run] at same
    simp [makeJson, makeError] at same

/-- A path with a malformed key neither returns nor changes a row, whatever is
exposed and stored, exactly if the method is not GET or no entity is named. -/
theorem invalidKey_untouched (basePath path method : Str) (invalid : (parseRoute { basePath } path).invalidKey) :
    (∀ read state catalog request, state.basePath = basePath → request.path = path → request.method = method →
      Untouched (handleODataRequest read state catalog request)) ↔
      method ≠ "GET".toList ∨ (parseRoute { basePath } path).entity = [] := by
  constructor
  · intro untouched
    by_contra exposed
    simp only [not_or, not_not] at exposed
    obtain ⟨rfl, named⟩ := exposed
    obtain ⟨remaining, same⟩ := parseRoute_invalid invalid
    obtain ⟨health, service, metadata, single⟩ := resourceRoute_plain remaining
    rw [← same] at health service metadata single
    have reads := untouched (fun _ => none) (exposing basePath (parseRoute { basePath } path).entity) oneColumn
      { method := "GET".toList, path } rfl rfl rfl
    rw [read_exposed _ basePath path _ rfl named ⟨health, service, metadata⟩] at reads
    exact readOf_touched basePath path single reads
  · rintro refused read state catalog request rfl rfl rfl
    rcases refused with writes | nameless
    · exact write_untouched invalid writes
    · exact nameless_untouched nameless

/-- `GET /odata/people(` returns the people. -/
theorem invalidKey_collection :
    (parseRoute (exposing "/odata".toList "people".toList) "/odata/people(".toList).invalidKey = true ∧
      (handleODataRequest (fun _ => none) (exposing "/odata".toList "people".toList) oneColumn
        { method := "GET".toList, path := "/odata/people(".toList }).run (holding [.integer 1]) =
        .ok (makeJson 200 "\x7b\"@odata.context\":\"/odata/$metadata#people\",\"value\":[\x7b\"a\":1\x7d]\x7d".toList) :=
  ⟨rfl, rfl⟩

theorem invalidKey_untouched_delete :
    Untouched (handleODataRequest (fun _ => none) (exposing "/odata".toList "people".toList) oneColumn
      { method := "DELETE".toList, path := "/odata/people(".toList }) :=
  (invalidKey_untouched "/odata".toList "/odata/people(".toList "DELETE".toList rfl).mpr (.inl (by decide)) _ _ _ _ rfl rfl rfl

end DuckdbOdata.KeyRoutes
