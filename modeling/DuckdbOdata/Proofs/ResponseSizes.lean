import DuckdbOdata.Proofs.KeyRoutes
import DuckdbOdata.Proofs.Responses

/-! The size of a collection's response against the cap. The cap is checked before
the link to the next page is known, and the link repeats the query of the request. -/

namespace DuckdbOdata.ResponseSizes
open Text Routes Responses

/-- A GET request for a collection. -/
structure AsksCollection (state : ServerState) (request : HttpRequest) : Prop where
  reads : request.method = "GET".toList
  resource : (parseRoute state request.path).health = false ∧ (parseRoute state request.path).serviceDoc = false ∧
    (parseRoute state request.path).metadata = false
  keyless : (parseRoute state request.path).keys = []

/-- A page with a link: the context and the count, the link to the next page, the
rows, and the 33 characters between them. -/
def linkedSize (request : HttpRequest) (parsed : ODataQuery) (page : CollectionPage) : Nat :=
  (pageHead page.context page.count).length +
    (jsonEscape (nextLink request (currentSkip parsed + page.result.rows.length))).length +
    (serializeRows page.result).1.length + 33

/-- If a page follows, there is room for the link to it. -/
def LinkFits (state : ServerState) (request : HttpRequest) (entity : EdmEntity) (parsed : ODataQuery) (database : Database)
    (page : CollectionPage) : Prop :=
  Follows state entity parsed database page.result.rows.length → (linkedSize request parsed page : Int) ≤ state.maxResponseBytes

private theorem value_length : ",\"value\":[".toList.length = 10 := rfl

private theorem link_length : ",\"@odata.nextLink\":\"".toList.length = 20 := rfl

private theorem end_length : "]\x7d".toList.length = 2 := rfl

private theorem quote_length : "\"".toList.length = 1 := rfl

private theorem render_unlinked {page : CollectionPage} (last : page.nextLink = none) :
    page.render.length + 4 = checkedSize page := by
  unfold CollectionPage.render checkedSize
  rw [last]
  dsimp only
  rw [List.append_nil, List.length_append, List.length_append, List.length_append, value_length, end_length]
  omega

private theorem render_linked {page : CollectionPage} {link : Str} (linked : page.nextLink = some link) :
    page.render.length =
      (pageHead page.context page.count).length + (jsonEscape link).length + (serializeRows page.result).1.length + 33 := by
  unfold CollectionPage.render
  rw [linked]
  dsimp only
  simp only [List.length_append, value_length, end_length, link_length, quote_length]
  omega

section
variable {state : ServerState} {catalog : Catalog} {request : HttpRequest} {database : Database} {response : HttpResponse}

private theorem page_fits {entity : EdmEntity} {parsed : ODataQuery} {page : CollectionPage}
    (capped : 0 ≤ state.maxResponseBytes) (checked : Checked state request entity parsed database page) :
    (page.render.length : Int) ≤ state.maxResponseBytes ↔ LinkFits state request entity parsed database page := by
  have skips : currentSkip (pagedQuery state parsed).1 = currentSkip parsed := by
    unfold pagedQuery
    split <;> rfl
  by_cases follows : Follows state entity parsed database page.result.rows.length
  · have linked := render_linked (checked.linked follows)
    rw [skips] at linked
    rw [linked]
    exact ⟨fun fits _ => fits, fun fits => fits follows⟩
  · have small := checked.fits capped
    have unlinked := render_unlinked (checked.unlinked follows)
    exact iff_of_true (by omega) fun other => absurd other follows

/-- A collection that is answered with status 200 is answered with a page, and the
body is within the cap exactly if no page follows or there is room for its link. -/
theorem response_size {read : BodyReader} (asks : AsksCollection state request) (capped : 0 ≤ state.maxResponseBytes)
    (ran : (handleODataRequest read state catalog request).run database = .ok response) (served : response.status = 200) :
    ∃ binding built parsed page, Reaches state catalog request binding built parsed ∧
      Shows state (applyColumnPolicy built binding) parsed database page ∧ response = makeJson 200 page.render ∧
      ((response.body.length : Int) ≤ state.maxResponseBytes ↔
        LinkFits state request (applyColumnPolicy built binding) parsed database page) := by
  have accepted : ¬ Refused response := by
    rintro ⟨status, code, message, failed, -, rfl⟩
    exact failed served
  obtain ⟨health, service, metadata⟩ := asks.resource
  rcases read_reaches asks.reads ran with refused | ⟨other, -⟩ | ⟨other, -⟩ | ⟨other, -⟩ | ⟨binding, built, parsed, reaches⟩
  · exact absurd refused accepted
  · rw [health] at other
    cases other
  · rw [service] at other
    cases other
  · rw [metadata] at other
    cases other
  rw [reaches.handles, if_neg (not_not.mpr asks.keyless)] at ran
  obtain ⟨page, shows, checked, rfl⟩ := (collection_page ran).resolve_left accepted
  exact ⟨binding, built, parsed, page, reaches, shows, rfl, page_fits capped checked⟩

end

open KeyRoutes

/-- One row a page, at most 140 characters a response. -/
private def small : ServerState := { exposing "/odata".toList "people".toList with pageSize := 1, maxResponseBytes := 140 }

private def asking (query : String) : HttpRequest where
  method := "GET".toList
  path := "/odata/people".toList
  rawQuery := query.toList
  query := parseQueryString query.toList

private theorem asking_collection (query : String) : AsksCollection small (asking query) where
  reads := rfl
  resource := ⟨rfl, rfl, rfl⟩
  keyless := rfl

theorem response_size_people : ∃ response,
    (handleODataRequest (fun _ => none) small oneColumn (asking "")).run (holding [.integer 5]) = .ok response ∧
    ∃ binding built parsed page, Reaches small oneColumn (asking "") binding built parsed ∧
      Shows small (applyColumnPolicy built binding) parsed (holding [.integer 5]) page ∧ response = makeJson 200 page.render ∧
      ((response.body.length : Int) ≤ 140 ↔
        LinkFits small (asking "") (applyColumnPolicy built binding) parsed (holding [.integer 5]) page) := by
  have ran : (handleODataRequest (fun _ => none) small oneColumn (asking "")).run (holding [.integer 5]) = .ok _ := rfl
  exact ⟨_, ran, response_size (asking_collection "") (by decide) ran rfl⟩

/-- An option without meaning is repeated in the link. -/
theorem response_size_long : ∃ response,
    (handleODataRequest (fun _ => none) small oneColumn (asking "x=0123456789012345678901234567890123456789")).run
      (holding [.integer 5]) = .ok response ∧ response.status = 200 ∧ ¬ (response.body.length : Int) ≤ small.maxResponseBytes := by
  refine ⟨_, rfl, rfl, ?_⟩
  decide +kernel

end DuckdbOdata.ResponseSizes
