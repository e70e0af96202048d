import DuckdbOdata.Foundation.Listings
import DuckdbOdata.Proofs.JsonBodies
import DuckdbOdata.Proofs.NextLinks
import DuckdbOdata.Proofs.Segmentation

/-! Server-driven paging, seen by a client that sends the link of each page as the
target of its next request. A page is full if it has as many rows as the page size
says, and the compiler may have capped it before. -/

namespace DuckdbOdata.Paging
open Text FilterGrammar Listings HttpTargets Routes Responses NextLinks JsonBodies JsonTexts Segmentation

/-- A page as it is read from a body. -/
def readPage (body : Str) : Option (Page Str Json.Value) :=
  match Json.read body with
  | some (.object members) =>
    match members.lookup "value".toList, members.lookup "@odata.nextLink".toList with
    | some (.array rows), none => some ⟨rows, none⟩
    | some (.array rows), some (.string link) => some ⟨rows, some link⟩
    | _, _ => none
  | _ => none

/-- The page that a request is answered with. -/
def answerPage (read : BodyReader) (state : ServerState) (catalog : Catalog) (database : Responses.Database) (request : HttpRequest) :
    Option (Page Str Json.Value) :=
  match (handleODataRequest read state catalog request).run database with
  | .ok response => if response.status = 200 then readPage response.body else none
  | .error _ => none

/-- The page that a GET request for a target is answered with. -/
def getPage (read : BodyReader) (state : ServerState) (catalog : Catalog) (database : Responses.Database) (lines target : Str) :
    Option (Page Str Json.Value) := do
  let request ← parseHttpRequest (requestHead "GET".toList target lines)
  answerPage read state catalog database request

def rowValue (names : List Str) (row : Row) : Json.Value := .object (rowMembers names row)

/-- The rows that `LIMIT` and `OFFSET` leave; a negative bound is no bound. -/
def sqlWindow (limit skip : Int) (rows : List Row) : List Row :=
  if 0 ≤ limit then window limit.toNat skip.toNat rows else rows.drop skip.toNat

/-- The statements of a collection request are answered from one list of rows. -/
structure Answers (database : Responses.Database) (state : ServerState) (entity : EdmEntity) (query : ODataQuery)
    (names : List Str) (rows : List Row) : Prop where
  small : (rows.length : Int) ≤ int64Max
  counts : ∀ compiled, compileCount query entity = .ok compiled →
    ∃ result, database (.query compiled.sql) = .ok (.ok result) ∧ result.firstValue = some (.integer rows.length)
  windows : ∀ skip compiled, compileCollection { (pagedQuery state query).1 with skip } entity state.maxTop = .ok compiled →
    ∃ result, database (.query compiled.sql) = .ok (.ok result) ∧ result.names = names ∧
      result.rows = sqlWindow (cappedTop (pagedQuery state query).1 state.maxTop) skip rows

/-- The rows of a page: the page size below the cap. -/
def pageRows (state : ServerState) : Nat :=
  (if 0 ≤ state.maxTop ∧ state.maxTop < state.pageSize then state.maxTop else state.pageSize).toNat

/-- What the size check sees of a page is within the cap on responses. -/
def Fits (state : ServerState) (entity : EdmEntity) (query : ODataQuery) (names : List Str) (rows : List Row) : Prop :=
  0 ≤ state.maxResponseBytes → ∀ page (result : ResultSet), result.names = names →
    result.rows = window (pageRows state) (page * pageRows state) rows →
      ((pageHead (entityContextUri state entity.name false) (if query.count then some (.integer rows.length) else none)).length +
        (serializeRows result).1.length + 16 : Int) ≤ state.maxResponseBytes

section
variable {state : ServerState} {entity : EdmEntity} {query : ODataQuery} {compiled : CompiledQuery} {maxTop : Int}

private theorem compile_skip (done : compileCollection query entity maxTop = .ok compiled) (skip : Int) :
    (∃ rows, compileCollection { query with skip } entity maxTop = .ok rows) ∧ ∃ count, compileCount query entity = .ok count := by
  obtain ⟨selected, selects, done⟩ := bind_ok done
  obtain ⟨condition, filters, done⟩ := bind_ok done
  obtain ⟨order, orders, -⟩ := bind_ok done
  constructor
  · refine ⟨⟨"SELECT ".toList ++ selected ++ " FROM ".toList ++ quotedTable entity ++ whereClause condition ++ order ++
      limitClause (cappedTop query maxTop) skip, false⟩, ?_⟩
    unfold compileCollection
    rw [show compileSelectList { query with skip } entity = .ok selected from selects,
      show compileFilterText { query with skip } entity = .ok condition from filters,
      show orderClause { query with skip } entity = .ok order from orders]
    rfl
  · refine ⟨⟨"SELECT COUNT(*) AS __odata_count FROM ".toList ++ quotedTable entity ++ whereClause condition, true⟩, ?_⟩
    unfold compileCount
    rw [filters]
    rfl

private theorem compile_statements {rows count : CompiledQuery} (compiles : compileCollection query entity maxTop = .ok rows)
    (counts : compileCount query entity = .ok count) :
    compileStatements query entity maxTop = .ok (rows, if query.count then some count else none) := by
  unfold compileStatements
  rw [compiles, counts]
  cases query.count with
  | true => rfl
  | false => rfl

end

section
variable {state : ServerState} {request : HttpRequest} {entity : EdmEntity} {query : ODataQuery} {database : Responses.Database}
  {names : List Str} {rows : List Row}

private theorem finish_served {shown : Option Value} {known : Int} {total : Nat} {result counting : ResultSet} {compiled : CompiledQuery}
    (fits : 0 ≤ state.maxResponseBytes →
      ((pageHead (entityContextUri state entity.name false) shown).length + (serializeRows result).1.length + 16 : Int) ≤
        state.maxResponseBytes)
    (counts : compileCount query entity = .ok compiled) (answered : database (.query compiled.sql) = .ok (.ok counting))
    (first : counting.firstValue = some (.integer total)) (knows : known < 0 ∨ known = total) :
    (finishCollection state request entity query true shown known result).run database =
      .ok (makeJson 200 (pageWith state request entity query shown result
        (decide ((result.rows.length : Int) = query.top ∧ currentSkip query + result.rows.length < total))).render) := by
  have small : ¬ (0 ≤ state.maxResponseBytes ∧ state.maxResponseBytes <
      (pageHead (entityContextUri state entity.name false) shown).length + (serializeRows result).1.length + 16) := by
    intro ⟨capped, large⟩
    have inside := fits capped
    omega
  have counted : (serializeRows result).2 = result.rows.length := rfl
  unfold finishCollection
  dsimp only
  rw [if_neg small, counted]
  by_cases full : (result.rows.length : Int) = query.top
  · simp only [full, true_and, if_true]
    rcases knows with unknown | rfl
    · rw [if_pos unknown, counts]
      dsimp only
      rw [executing_answered _ answered, first]
      rfl
    · rw [if_neg (by omega)]
      rfl
  · simp only [full, and_false, false_and, if_false]
    rfl

/-- The query with the page size as its limit. -/
private def paged (state : ServerState) (query : ODataQuery) (skip : Int) : ODataQuery := { query with top := state.pageSize, skip }

private theorem pagedQuery_unpaged (positive : 0 < state.pageSize) (unlimited : query.top = -1) (skip : Int) :
    pagedQuery state { query with skip } = (paged state query skip, true) := by
  apply if_pos
  refine ⟨positive, ?_⟩
  change query.top < 0
  omega

private theorem cappedTop_paged (positive : 0 < state.pageSize) (skip : Int) :
    cappedTop (paged state query skip) state.maxTop = pageRows state := by
  unfold cappedTop pageRows paged
  dsimp only
  rw [if_pos (by omega)]
  split <;> omega

/-- The link of the page that begins with the given row. -/
def linkFrom (state : ServerState) (request : HttpRequest) (rows : List Row) (start : Nat) : Option Str :=
  if ((window (pageRows state) start rows).length : Int) = state.pageSize ∧
    start + (window (pageRows state) start rows).length < rows.length then
    some (nextLink request (start + (window (pageRows state) start rows).length : Nat))
  else none

/-- What a page of a collection has and where it leads. -/
structure Shown (state : ServerState) (request : HttpRequest) (entity : EdmEntity) (names : List Str) (rows : List Row) (start : Nat)
    (page : CollectionPage) : Prop where
  context : page.context = entityContextUri state entity.name false
  counted : ∀ value, page.count = some value → ∃ count, value = .integer count
  named : page.result.names = names
  shown : page.result.rows = window (pageRows state) start rows
  linked : page.nextLink = linkFrom state request rows start

private theorem pageWith_shown {shown : Option Value} {result : ResultSet} {start : Nat}
    (counted : ∀ value, shown = some value → ∃ count, value = .integer count) (named : result.names = names)
    (shows : result.rows = window (pageRows state) start rows) (limited : query.top = state.pageSize) (begins : currentSkip query = start) :
    Shown state request entity names rows start (pageWith state request entity query shown result
      (decide ((result.rows.length : Int) = query.top ∧ currentSkip query + result.rows.length < rows.length))) where
  context := rfl
  counted := counted
  named := named
  shown := shows
  linked := by
    unfold pageWith
    rw [shows, limited, begins]
    simp only [decide_eq_true_eq]
    norm_cast

private theorem collection_served {compiled : CompiledQuery} {skip : Int} {page : Nat} (positive : 0 < state.pageSize)
    (unlimited : query.top = -1) (compiles : compileCollection (pagedQuery state query).1 entity state.maxTop = .ok compiled)
    (answers : Answers database state entity query names rows) (fits : Fits state entity query names rows)
    (begins : currentSkip { query with skip } = (page * pageRows state : Nat)) :
    ∃ shown, Shown state request entity names rows (page * pageRows state) shown ∧
      (collection state request entity { query with skip }).run database = .ok (makeJson 200 shown.render) := by
  have unskipped : pagedQuery state query = (paged state query query.skip, true) := pagedQuery_unpaged positive unlimited query.skip
  rw [unskipped] at compiles
  obtain ⟨⟨statement, done⟩, count, counts⟩ := compile_skip compiles skip
  obtain ⟨counting, total, first⟩ := answers.counts count counts
  have windows := answers.windows skip statement
  rw [unskipped] at windows
  obtain ⟨result, answered, named, shown⟩ := windows done
  have begun : skip.toNat = page * pageRows state := by
    have unset : currentSkip { query with skip } = if skip < 0 then 0 else skip := rfl
    rw [unset] at begins
    split at begins <;> omega
  have shows : result.rows = window (pageRows state) (page * pageRows state) rows := by
    have limit : cappedTop (paged state query query.skip) state.maxTop = pageRows state := cappedTop_paged positive query.skip
    rw [shown, sqlWindow, limit, if_pos (by omega), begun, Int.toNat_natCast]
  have small := fun capped => fits capped page result named shows
  have statements : compileStatements (paged state query skip) entity state.maxTop =
      .ok (statement, if query.count then some count else none) := compile_statements done counts
  have limited : (paged state query skip).top = state.pageSize := rfl
  have skips : currentSkip (paged state query skip) = (page * pageRows state : Nat) := begins
  unfold collection
  rw [pagedQuery_unpaged positive unlimited]
  dsimp only
  rw [statements]
  cases asked : query.count with
  | false =>
    have uncounted : ∀ value, (none : Option Value) = some value → ∃ count, value = .integer count := by
      intro value same
      cases same
    rw [asked] at small
    refine ⟨_, pageWith_shown uncounted named shows limited skips, ?_⟩
    rw [if_neg Bool.false_ne_true]
    apply (executing_answered _ answered).trans
    exact finish_served small counts total first (.inl (by decide))
  | true =>
    have printed : countOf counting = .ok (.integer rows.length, rows.length) := by
      unfold countOf
      rw [first]
      rfl
    have counted : ∀ value, some (Value.integer rows.length) = some value → ∃ count, value = .integer count := by
      intro value same
      cases same
      exact ⟨_, rfl⟩
    rw [asked] at small
    refine ⟨_, pageWith_shown counted named shows limited skips, ?_⟩
    rw [if_pos rfl]
    apply (executing_answered _ total).trans
    rw [printed]
    apply (executing_answered _ answered).trans
    exact finish_served small counts total first (.inr rfl)

private theorem readPage_members {page : CollectionPage} (plain : ∀ c ∈ page.context, c ≠ '"' ∧ c ≠ '\\' ∧ 32 ≤ c.toNat)
    (counted : ∀ value, page.count = some value → ∃ count, value = .integer count) (numeric : NumericRows page.result) :
    readPage page.render = some ⟨page.result.rows.map (rowValue page.result.names), page.nextLink⟩ := by
  unfold readPage
  rw [page_reads plain counted numeric]
  unfold pageMembers
  cases page.count <;> cases page.nextLink <;> simp [List.lookup_cons, rowsArray, rowValue]

/-- The context and the rows are such that the pages are JSON texts. -/
structure Plain (state : ServerState) (entity : EdmEntity) (rows : List Row) : Prop where
  context : ∀ c ∈ entityContextUri state entity.name false, c ≠ '"' ∧ c ≠ '\\' ∧ 32 ≤ c.toNat
  values : ∀ row ∈ rows, ∀ value ∈ row, Numeric value

private theorem readPage_shown {start : Nat} {page : CollectionPage} (shown : Shown state request entity names rows start page)
    (plain : Plain state entity rows) :
    readPage page.render =
      some ⟨window (pageRows state) start (rows.map (rowValue names)), linkFrom state request rows start⟩ := by
  have numeric : NumericRows page.result := by
    intro row member
    rw [shown.shown] at member
    exact plain.values row (List.mem_of_mem_drop (List.mem_of_mem_take member))
  rw [readPage_members (shown.context ▸ plain.context) shown.counted numeric, shown.named, shown.shown, shown.linked, window_map]

end

section
variable {read : BodyReader} {state : ServerState} {catalog : Catalog} {database : Responses.Database} {request : HttpRequest}
  {binding : EntityBinding} {built : EdmEntity} {query : ODataQuery} {names : List Str} {rows : List Row} {lines target : Str}

/-- A GET request for a collection that leaves the paging to the server. -/
structure AsksAll (state : ServerState) (catalog : Catalog) (lines target : Str) (request : HttpRequest) (binding : EntityBinding)
    (built : EdmEntity) (query : ODataQuery) : Prop where
  names : Word target
  sent : parseHttpRequest (requestHead "GET".toList target lines) = some request
  reaches : Reaches state catalog request binding built query
  keyless : (parseRoute state request.path).keys = []
  unpaged : Unpaged request.query
  compiles : ∃ compiled, compileCollection (pagedQuery state query).1 (applyColumnPolicy built binding) state.maxTop = .ok compiled

/-- What the pages of a request depend on. -/
private structure Setting (state : ServerState) (entity : EdmEntity) (query : ODataQuery) (database : Responses.Database)
    (names : List Str) (rows : List Row) : Prop where
  positive : 0 < state.pageSize
  unlimited : query.top = -1
  compiles : ∃ compiled, compileCollection (pagedQuery state query).1 entity state.maxTop = .ok compiled
  answers : Answers database state entity query names rows
  fits : Fits state entity query names rows
  plain : Plain state entity rows

/-- A target that is answered with the rows from a position on. -/
private structure Serves (state : ServerState) (catalog : Catalog) (binding : EntityBinding) (built : EdmEntity) (query : ODataQuery)
    (rows : List Row) (lines : Str) (start : Nat) (target : Str) (request : HttpRequest) (skip : Int) : Prop where
  sent : parseHttpRequest (requestHead "GET".toList target lines) = some request
  reaches : Reaches state catalog request binding built { query with skip }
  keyless : (parseRoute state request.path).keys = []
  begins : currentSkip { query with skip } = start
  whole : ∃ page, start = page * pageRows state
  inside : start ≤ rows.length

private theorem getPage_served {start : Nat} {skip : Int} (read : BodyReader)
    (setting : Setting state (applyColumnPolicy built binding) query database names rows)
    (serves : Serves state catalog binding built query rows lines start target request skip) :
    getPage read state catalog database lines target =
      some ⟨window (pageRows state) start (rows.map (rowValue names)), linkFrom state request rows start⟩ := by
  obtain ⟨page, rfl⟩ := serves.whole
  obtain ⟨compiled, compiles⟩ := setting.compiles
  obtain ⟨shown, shows, served⟩ := @collection_served state request _ query database names rows compiled skip page setting.positive
    setting.unlimited compiles setting.answers setting.fits serves.begins
  have ran : (handleODataRequest read state catalog request).run database = .ok (makeJson 200 shown.render) := by
    rw [serves.reaches.handles, if_neg (not_not.mpr serves.keyless)]
    exact served
  unfold getPage answerPage
  rw [serves.sent, Option.bind_eq_bind, Option.bind_some, ran]
  exact readPage_shown shows setting.plain

private theorem linkFrom_last {start : Nat} (inside : start ≤ rows.length) (short : rows.length ≤ start + pageRows state) :
    linkFrom state request rows start = none := by
  apply if_neg
  rw [window_length]
  omega

private theorem linkFrom_next {start : Nat} (size : (pageRows state : Int) = state.pageSize)
    (more : start + pageRows state < rows.length) :
    linkFrom state request rows start = some (nextLink request (start + pageRows state : Nat)) := by
  have full : (window (pageRows state) start rows).length = pageRows state := by
    rw [window_length]
    omega
  unfold linkFrom
  rw [full, if_pos ⟨size, more⟩]

private theorem linkFrom_capped (start : Nat) (size : (pageRows state : Int) < state.pageSize) :
    linkFrom state request rows start = none := by
  apply if_neg
  rw [window_length]
  omega

/-- Besides, the link of its answer is answered in the same way. -/
private structure Continues (state : ServerState) (catalog : Catalog) (binding : EntityBinding) (built : EdmEntity) (query : ODataQuery)
    (rows : List Row) (lines : Str) (start : Nat) (target : Str) (request : HttpRequest) (skip : Int) : Prop where
  names : Word target
  serves : Serves state catalog binding built query rows lines start target request skip
  headed : parseHeaders (crlfLines lines) = some request.headers
  read : Sent request
  resumes : Resumes state request.path

private theorem continues_next {start next : Nat} {skip : Int}
    (continues : Continues state catalog binding built query rows lines start target request skip)
    (small : (rows.length : Int) ≤ int64Max) (whole : ∃ page, next = page * pageRows state) (inside : next ≤ rows.length) :
    Continues state catalog binding built query rows lines next (nextLink request next) (linkedRequest request next) next := by
  obtain ⟨-, serves, headed, from', resumes⟩ := continues
  have linked := requestOf_linked resumes next
  rw [serves.reaches.reads] at linked
  refine ⟨linked_word from' resumes next, ?_, headed, from'.linked resumes next, resumes.next⟩
  constructor
  · rw [parseHttpRequest_target word_get (linked_word from' resumes next), headed, Option.map_some, linked]
  · exact reaches_linked from' resumes serves.reaches (by omega)
  · exact keyless_linked resumes serves.keyless next
  · exact if_neg (Int.not_lt.mpr (Int.natCast_nonneg next))
  · exact whole
  · exact inside

private theorem continues_short {start : Nat} {skip : Int}
    (continues : Continues state catalog binding built query rows lines start target request skip) {next : Nat}
    (small : (next : Int) ≤ int64Max) : (nextLink request next).length ≤ target.length + 26 := by
  have sent := continues.serves.sent
  rw [parseHttpRequest_target word_get continues.names] at sent
  obtain ⟨headers, -, rfl⟩ := Option.map_eq_some_iff.mp sent
  exact nextLink_length _ _ _ small

private theorem continues_step {start : Nat} {skip : Int} (read : BodyReader)
    (setting : Setting state (applyColumnPolicy built binding) query database names rows)
    (size : (pageRows state : Int) = state.pageSize)
    (continues : Continues state catalog binding built query rows lines start target request skip) :
    (rows.length ≤ start + pageRows state ∧ getPage read state catalog database lines target =
        some ⟨window (pageRows state) start (rows.map (rowValue names)), none⟩) ∨
      (start + pageRows state < rows.length ∧ ∃ next,
        getPage read state catalog database lines target =
          some ⟨window (pageRows state) start (rows.map (rowValue names)), some next⟩ ∧
        next.length ≤ target.length + 26 ∧
        ∃ later skip', Continues state catalog binding built query rows lines (start + pageRows state) next later skip') := by
  have served := getPage_served read setting continues.serves
  have small := setting.answers.small
  rcases Nat.lt_or_ge (start + pageRows state) rows.length with more | short
  · right
    rw [linkFrom_next size more] at served
    refine ⟨more, _, served, continues_short continues (by omega), _, _, continues_next continues small ?_ more.le⟩
    obtain ⟨page, rfl⟩ := continues.serves.whole
    exact ⟨page + 1, (Nat.succ_mul page _).symm⟩
  · left
    rw [linkFrom_last continues.serves.inside short] at served
    exact ⟨short, served⟩

private theorem continues_all {fetch : Str → Option (Page Str Json.Value)} {skip : Int} (read : BodyReader)
    (setting : Setting state (applyColumnPolicy built binding) query database names rows)
    (size : (pageRows state : Int) = state.pageSize)
    (continues : Continues state catalog binding built query rows lines 0 target request skip)
    (agrees : ∀ place, Word place → place.length ≤ target.length + 26 * (rows.length / pageRows state) →
      fetch place = getPage read state catalog database lines place) :
    Lists fetch target (rows.map (rowValue names)) := by
  have positive : 0 < pageRows state := by
    have some := setting.positive
    omega
  -- besides, each page adds at most 26 bytes to the target
  have all := @Lists.of_windows _ _ fetch target (rows.map (rowValue names)) (pageRows state)
    (fun start place => place.length ≤ target.length + 26 * (start / pageRows state) ∧
      ∃ request skip, Continues state catalog binding built query rows lines start place request skip) positive
  rw [List.length_map] at all
  apply all ?_ ⟨Nat.le_add_right _ _, request, skip, continues⟩
  intro start place ⟨short, request, skip, continues⟩
  have before : start / pageRows state ≤ rows.length / pageRows state := Nat.div_le_div_right continues.serves.inside
  rw [agrees place continues.names (by omega)]
  rcases continues_step read setting size continues with last | ⟨more, next, served, longer, follows⟩
  · exact .inl last
  · refine .inr ⟨more, next, served, ?_, follows⟩
    rw [Nat.add_div_right start positive]
    omega

/-- The cap is off or above the page size. -/
def Uncapped (state : ServerState) : Prop := state.maxTop < 0 ∨ state.pageSize ≤ state.maxTop

private theorem pageRows_uncapped (positive : 0 < state.pageSize) : (pageRows state : Int) = state.pageSize ↔ Uncapped state := by
  unfold pageRows Uncapped
  split <;> omega

private theorem pageRows_le (positive : 0 < state.pageSize) : (pageRows state : Int) ≤ state.pageSize := by
  unfold pageRows
  split <;> omega

private theorem asks_unlimited (asks : AsksAll state catalog lines target request binding built query) : query.top = -1 :=
  (asks.unpaged.parsed asks.reaches.parsed).1

private theorem asks_serves (rows : List Row) (asks : AsksAll state catalog lines target request binding built query) :
    Serves state catalog binding built query rows lines 0 target request query.skip := by
  have unset := (asks.unpaged.parsed asks.reaches.parsed).2
  refine ⟨asks.sent, asks.reaches, asks.keyless, ?_, ⟨0, (Nat.zero_mul _).symm⟩, Nat.zero_le _⟩
  apply if_pos
  change query.skip < 0
  omega

private theorem asks_continues (asks : AsksAll state catalog lines target request binding built query)
    (resumes : Resumes state request.path) :
    Continues state catalog binding built query rows lines 0 target request query.skip := by
  have sent := asks.sent
  rw [parseHttpRequest_target word_get asks.names] at sent
  obtain ⟨headers, headed, same⟩ := Option.map_eq_some_iff.mp sent
  have kept : request.headers = headers := same ▸ (requestOf_kept _ _ _).2.1
  refine ⟨asks.names, asks_serves rows asks, headed.trans (congrArg some kept.symm), ?_, resumes⟩
  rw [← same]
  exact .target asks.names _ _

private theorem asks_setting (asks : AsksAll state catalog lines target request binding built query) (positive : 0 < state.pageSize)
    (answers : Answers database state (applyColumnPolicy built binding) query names rows)
    (fits : Fits state (applyColumnPolicy built binding) query names rows) (plain : Plain state (applyColumnPolicy built binding) rows) :
    Setting state (applyColumnPolicy built binding) query database names rows :=
  ⟨positive, asks_unlimited asks, asks.compiles, answers, fits, plain⟩

private theorem lists_short (read : BodyReader) (setting : Setting state (applyColumnPolicy built binding) query database names rows)
    {skip : Int} (serves : Serves state catalog binding built query rows lines 0 target request skip)
    (short : rows.length ≤ pageRows state) : Lists (getPage read state catalog database lines) target (rows.map (rowValue names)) := by
  have served := getPage_served read setting serves
  rw [linkFrom_last serves.inside (by omega), window_all (by rw [List.length_map]; omega), List.drop_zero] at served
  exact .last served

private theorem lists_capped (read : BodyReader) (setting : Setting state (applyColumnPolicy built binding) query database names rows)
    {skip : Int} (serves : Serves state catalog binding built query rows lines 0 target request skip)
    (size : (pageRows state : Int) < state.pageSize)
    (lists : Lists (getPage read state catalog database lines) target (rows.map (rowValue names))) : rows.length ≤ pageRows state := by
  have served := getPage_served read setting serves
  rw [linkFrom_capped 0 size] at served
  have whole := congrArg List.length (lists.eq_of_last served)
  rw [window_length, List.length_map] at whole
  omega

/-- The pages are as long as the page size says. -/
theorem lists_uncapped (read : BodyReader) (asks : AsksAll state catalog lines target request binding built query)
    (positive : 0 < state.pageSize) (uncapped : Uncapped state) (resumes : Resumes state request.path)
    (answers : Answers database state (applyColumnPolicy built binding) query names rows)
    (fits : Fits state (applyColumnPolicy built binding) query names rows) (plain : Plain state (applyColumnPolicy built binding) rows) :
    Lists (getPage read state catalog database lines) target (rows.map (rowValue names)) :=
  continues_all read (asks_setting asks positive answers fits plain) ((pageRows_uncapped positive).mpr uncapped)
    (asks_continues asks resumes) fun _ _ _ => rfl

/-- If the rows fit on one page, or the cap is not below the page size and the path
can be repeated, then a client receives every row once, in order, and comes to an
end. If the cap is below the page size and the rows do not fit, it does not. -/
theorem paging_complete (read : BodyReader) (asks : AsksAll state catalog lines target request binding built query)
    (positive : 0 < state.pageSize) (answers : Answers database state (applyColumnPolicy built binding) query names rows)
    (fits : Fits state (applyColumnPolicy built binding) query names rows) (plain : Plain state (applyColumnPolicy built binding) rows) :
    (rows.length ≤ pageRows state ∨ Uncapped state ∧ Resumes state request.path →
        Lists (getPage read state catalog database lines) target (rows.map (rowValue names))) ∧
      (Lists (getPage read state catalog database lines) target (rows.map (rowValue names)) →
        rows.length ≤ pageRows state ∨ Uncapped state) := by
  have setting := asks_setting asks positive answers fits plain
  have serves := asks_serves rows asks
  constructor
  · rintro (short | ⟨uncapped, resumes⟩)
    · exact lists_short read setting serves short
    · exact lists_uncapped read asks positive uncapped resumes answers fits plain
  · intro lists
    by_cases uncapped : Uncapped state
    · exact .inr uncapped
    · left
      have size := pageRows_le positive
      have other := mt (pageRows_uncapped positive).mp uncapped
      exact lists_capped read setting serves (by omega) lists

end

open KeyRoutes

def serving (pageSize maxTop : Int) : ServerState :=
  { exposing "/odata".toList "people".toList with pageSize := pageSize, maxTop := maxTop }

def people : ODataQuery := { entitySet := "people".toList }

private def everyone : HttpRequest where
  method := "GET".toList
  path := "/odata/people".toList

private def three : List Value := [.integer 1, .integer 2, .integer 3]

private def statement : Str := "SELECT \"a\" FROM \"t\" LIMIT 2".toList

private def countStatement : Str := "SELECT COUNT(*) AS __odata_count FROM \"t\"".toList

/-- Three rows that are read two at a time: what follows ` OFFSET ` is the row to
begin with. -/
private def resultOf (sql : Str) : ResultSet :=
  if sql = countStatement then column [.integer 3]
  else column (window 2 (Nat.ofDigitChars 10 (sql.drop (statement.length + 8)) 0) three)

private def table : (call : DbCall) → call.Answer
  | .query sql => .ok (.ok (resultOf sql))
  | .prepare _ => .ok none
  | .execute _ => .ok (.ok ())
  | .fetch => .ok none

private theorem offset_read (skip : Int) :
    Nat.ofDigitChars 10 ((statement ++ if 0 ≤ skip then " OFFSET ".toList ++ intText skip else []).drop (statement.length + 8)) 0 =
      skip.toNat := by
  split
  next set =>
    obtain ⟨n, rfl⟩ := Int.eq_ofNat_of_zero_le set
    have digits : intText (n : Int) = Nat.toDigits 10 n := if_neg (by omega)
    have front : (statement ++ " OFFSET ".toList).length = statement.length + 8 := List.length_append
    rw [← List.append_assoc, List.drop_left' front, digits, Nat.ofDigitChars_ten_toDigits]
    rfl
  next unset =>
    rw [List.append_nil, List.drop_eq_nil_of_le (Nat.le_add_right _ 8), Int.toNat_of_nonpos (by omega)]
    rfl

private theorem resultOf_window (skip : Int) :
    resultOf (statement ++ if 0 ≤ skip then " OFFSET ".toList ++ intText skip else []) = column (window 2 skip.toNat three) := by
  have other : (statement ++ if 0 ≤ skip then " OFFSET ".toList ++ intText skip else []) ≠ countStatement := by
    intro same
    have front := congrArg (List.take 8) same
    rw [List.take_append_of_le_length (by decide)] at front
    revert front
    decide
  unfold resultOf
  rw [if_neg other, offset_read]

private theorem table_answers {pageSize maxTop : Int} (limited : cappedTop (pagedQuery (serving pageSize maxTop) people).1 maxTop = 2) :
    Answers table (serving pageSize maxTop) (oneColumnEntity "people".toList) people ["a".toList] (three.map fun value => [value]) where
  small := by decide
  counts compiled done := by
    cases done
    exact ⟨column [.integer 3], rfl, rfl⟩
  windows skip compiled done := by
    have statements : compileCollection { (pagedQuery (serving pageSize maxTop) people).1 with skip } (oneColumnEntity "people".toList)
        maxTop = .ok ⟨"SELECT \"a\" FROM \"t\"".toList ++
          limitClause (cappedTop (pagedQuery (serving pageSize maxTop) people).1 maxTop) skip, false⟩ := by
      unfold pagedQuery
      split <;> rfl
    have text : "SELECT \"a\" FROM \"t\"".toList ++ limitClause 2 skip =
        statement ++ if 0 ≤ skip then " OFFSET ".toList ++ intText skip else [] := by
      unfold limitClause
      rw [if_pos (by decide), ← List.append_assoc]
      rfl
    cases statements.symm.trans done
    refine ⟨resultOf _, rfl, ?_, ?_⟩
    · rw [limited, text, resultOf_window]
      rfl
    · have capped : cappedTop (pagedQuery (serving pageSize maxTop) people).1 (serving pageSize maxTop).maxTop = 2 := limited
      rw [limited, text, resultOf_window, capped]
      exact (List.append_nil _).trans (window_map _ 2 skip.toNat three)

private theorem everyone_asks (pageSize maxTop : Int) :
    AsksAll (serving pageSize maxTop) oneColumn "\r\n".toList "/odata/people".toList everyone
      { name := "people".toList, table := "t".toList } (oneColumnEntity "people".toList) people where
  names := ⟨by decide, every (by decide)⟩
  sent := by decide +kernel
  reaches := ⟨rfl, rfl, fun busy => absurd busy.1 (Int.lt_irrefl 0), ⟨rfl, rfl, rfl⟩,
    (show "people".toList ≠ [] by decide), rfl, rfl, rfl, rfl⟩
  keyless := rfl
  unpaged := nofun
  compiles := by
    unfold pagedQuery
    split <;> exact ⟨_, rfl⟩

theorem serving_fits (pageSize maxTop : Int) : Fits (serving pageSize maxTop) (oneColumnEntity "people".toList) people
    ["a".toList] (three.map fun value => [value]) := by
  intro capped
  have off : (serving pageSize maxTop).maxResponseBytes = -1 := rfl
  omega

private theorem three_plain (pageSize maxTop : Int) :
    Plain (serving pageSize maxTop) (oneColumnEntity "people".toList) (three.map fun value => [value]) where
  context := by
    change ∀ c ∈ "/odata/$metadata#people".toList, _
    exact every (by decide)
  values row member value inside shown same := by
    obtain ⟨held, listed, rfl⟩ := List.mem_map.mp member
    rw [List.mem_singleton.mp inside] at same
    rw [same] at listed
    simp [three] at listed

/-- The values of the whole table. -/
private def allRows : List Json.Value := (three.map fun value => [value]).map (rowValue ["a".toList])

theorem paging_complete_people :
    Lists (getPage (fun _ => none) (serving 2 10000) oneColumn table "\r\n".toList) "/odata/people".toList allRows := by
  have complete := paging_complete (fun _ => none) (everyone_asks 2 10000) (by decide) (table_answers (by decide))
    (serving_fits 2 10000) (three_plain 2 10000)
  apply complete.1
  right
  constructor
  · right
    decide
  · exact .plain _ (every (by decide)) (every (by decide))

/-- The page size is three, but no request is answered with more than two rows, and
there is no link to the third. -/
theorem paging_complete_capped :
    AsksAll (serving 3 2) oneColumn "\r\n".toList "/odata/people".toList everyone { name := "people".toList, table := "t".toList }
        (oneColumnEntity "people".toList) people ∧
      Answers table (serving 3 2) (oneColumnEntity "people".toList) people ["a".toList] (three.map fun value => [value]) ∧
      ¬ Lists (getPage (fun _ => none) (serving 3 2) oneColumn table "\r\n".toList) "/odata/people".toList allRows := by
  have asks := everyone_asks 3 2
  have answers := table_answers (show cappedTop (pagedQuery (serving 3 2) people).1 2 = 2 by decide)
  refine ⟨asks, answers, ?_⟩
  intro lists
  have setting := asks_setting asks (by decide) answers (serving_fits 3 2) (three_plain 3 2)
  have short := lists_capped _ setting (asks_serves (three.map fun value => [value]) asks) (by decide) lists
  exact absurd short (by decide)

end DuckdbOdata.Paging
