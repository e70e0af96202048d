import DuckdbOdata.Proofs.Entities
import DuckdbOdata.Proofs.Paging
import DuckdbOdata.Proofs.SelectStatements

/-! What a client sees of the tables of a database that evaluates SELECT statements:
the rows that the filter keeps, sorted and cut as the query says, and how many there
are in all. -/

namespace DuckdbOdata.SelectedRows
open Text Listings FilterGrammar SqlTokens Routes Responses SelectStatements

/-- The tables of a database and what it makes of a SELECT over one of them. -/
structure Tables (Record α : Type) where
  engine : Sql.Engine Record α Row
  find : List Str → Option (List Record)
  header : List Str → Sql.Selection → List Str
  counts : ∀ n, engine.number n = [.integer n]
  shaped : ∀ source selection record, (engine.shown selection record).length = (header source selection).length
  counted : ∀ source name, (header source (.count name)).length = 1

private theorem evaluate_shaped {Record α : Type} (tables : Tables Record α) (select : Sql.Select) (records : List Record) :
    ∀ row ∈ select.evaluate tables.engine records, row.length = (tables.header select.source select.selection).length := by
  have cut_mem : ∀ {rows : List Row} {row : Row}, row ∈ select.cut rows → row ∈ rows := by
    intro rows row member
    unfold Sql.Select.cut window at member
    split at member
    next => exact List.mem_of_mem_drop member
    next => exact List.mem_of_mem_drop (List.mem_of_mem_take member)
  intro row member
  unfold Sql.Select.evaluate at member
  split at member
  next name counts =>
    rw [List.mem_singleton.mp (cut_mem member), tables.counts, counts, tables.counted]
    rfl
  next =>
    obtain ⟨record, -, rfl⟩ := List.mem_map.mp member
    exact tables.shaped _ _ _

/-- The rows that a statement evaluates to, one in a chunk. -/
def Tables.answer {Record α : Type} (tables : Tables Record α) (select : Sql.Select) (records : List Record) : ResultSet where
  names := tables.header select.source select.selection
  chunks := (select.evaluate tables.engine records).map fun row => [row]
  shaped := by
    intro chunk listed row member
    obtain ⟨shown, evaluated, rfl⟩ := List.mem_map.mp listed
    rw [List.mem_singleton.mp member]
    exact evaluate_shaped tables select records shown evaluated

/-- An answer from a table. Chunks are fetched until one is empty. -/
structure Answers {Record α : Type} (tables : Tables Record α) (select : Sql.Select) (records : List Record) (result : ResultSet) :
    Prop where
  names : result.names = tables.header select.source select.selection
  rows : select.Returns tables.engine records result.rows
  chunks : ∀ chunk ∈ result.chunks, chunk ≠ []

/-- Every SELECT over one of the tables that succeeds is answered from the table. -/
def Describes {Record α : Type} (tables : Tables Record α) (database : Database) : Prop :=
  ∀ sql select records result, Sql.readSelect sql = some select → tables.find select.source = some records →
    database (.query sql) = .ok (.ok result) → Answers tables select records result

def Tables.query {Record α : Type} (tables : Tables Record α) (sql : Str) : Except DbError ResultSet :=
  match Sql.readSelect sql with
  | none => .error { message := "syntax error".toList }
  | some select =>
    match tables.find select.source with
    | none => .error { message := "table does not exist".toList }
    | some records => .ok (tables.answer select records)

/-- A database that evaluates every such SELECT and refuses any other query. -/
def evaluating {Record α : Type} (tables : Tables Record α) : Database
  | .query sql => .ok (tables.query sql)
  | .prepare _ => .ok none
  | .execute _ => .ok (.ok ())
  | .fetch => .ok none

section Answers

variable {Record α : Type} {tables : Tables Record α} {select : Sql.Select} {records : List Record} {result : ResultSet}

private theorem first_chunk (chunks : ∀ chunk ∈ result.chunks, chunk ≠ []) {row : Row} {rest : List Row}
    (rows : result.rows = row :: rest) : ∃ first later, result.chunks = (row :: first) :: later := by
  unfold ResultSet.rows at rows
  cases listed : result.chunks with
  | nil =>
    rw [listed] at rows
    cases rows
  | cons chunk later =>
    rw [listed] at rows chunks
    obtain ⟨first, others, rfl⟩ := List.exists_cons_of_ne_nil (chunks chunk List.mem_cons_self)
    cases rows
    exact ⟨others, later, rfl⟩

private theorem Answers.first (answers : Answers tables select records result) {value : Value} {rest : List Row}
    (rows : result.rows = [value] :: rest) : result.firstValue = some value := by
  obtain ⟨first, later, listed⟩ := first_chunk answers.chunks rows
  unfold ResultSet.firstValue
  rw [listed]
  rfl

theorem answer_answers (tables : Tables Record α) (select : Sql.Select) (records : List Record) :
    Answers tables select records (tables.answer select records) where
  names := rfl
  rows := by
    have rows : (tables.answer select records).rows = select.evaluate tables.engine records := by
      unfold Tables.answer ResultSet.rows
      exact (List.flatMap_def ..).symm.trans (List.flatMap_singleton' _)
    rw [rows]
    exact select.evaluate_returns tables.engine records
  chunks := by
    intro chunk member
    obtain ⟨row, -, rfl⟩ := List.mem_map.mp member
    exact List.cons_ne_nil _ _

private theorem query_known {sql : Str} (read : Sql.readSelect sql = some select) (known : tables.find select.source = some records) :
    tables.query sql = .ok (tables.answer select records) := by
  unfold Tables.query
  rw [read]
  dsimp only
  rw [known]

theorem evaluating_describes (tables : Tables Record α) : Describes tables (evaluating tables) := by
  intro sql select records result read known answered
  have same : tables.query sql = .ok result := Except.ok.inj answered
  cases (query_known read known).symm.trans same
  exact answer_answers tables select records

end Answers

variable {Record α : Type} {tables : Tables Record α} {records : List Record} {database : Database}
variable {state : ServerState} {catalog : Catalog} {request : HttpRequest} {entity : EdmEntity} {query parsed : ODataQuery}
  {response : HttpResponse}

/-- The columns that a query asks for, and what they have in a row. -/
def columnsOf (tables : Tables Record α) (entity : EdmEntity) (query : ODataQuery) : List Str :=
  tables.header (tablePath entity) (selectionOf query entity)

def rowOf (tables : Tables Record α) (entity : EdmEntity) (query : ODataQuery) : Record → Row :=
  tables.engine.shown (selectionOf query entity)

/-- The rows that the filter of a query keeps. -/
def kept (tables : Tables Record α) (entity : EdmEntity) (query : ODataQuery) (records : List Record) : List Record :=
  (selectOf entity (.count query)).matching tables.engine records

private theorem counting_first {compiled : CompiledQuery} {result : ResultSet} (types : WellFormedTypes entity)
    (separated : SeparatedFilter query) (describes : Describes tables database) (known : tables.find (tablePath entity) = some records)
    (done : compileCount query entity = .ok compiled) (answered : database (.query compiled.sql) = .ok (.ok result)) :
    result.firstValue = some (.integer (kept tables entity query records).length) := by
  have select := statement_selects types (.count query) done separated
  have answers := describes _ _ records result select known answered
  have rows : result.rows = [tables.engine.number (kept tables entity query records).length] := answers.rows
  rw [tables.counts] at rows
  exact answers.first rows

private theorem counted_kept {compiled : CompiledQuery} {result : ResultSet} (types : WellFormedTypes entity)
    (separated : SeparatedFilter query) (describes : Describes tables database) (known : tables.find (tablePath entity) = some records)
    (done : compileCount query entity = .ok compiled) (answered : database (.query compiled.sql) = .ok (.ok result)) :
    counted database query entity = some ((kept tables entity query records).length : Int) := by
  rw [counted_of done answered, counting_first types separated describes known done answered]
  rfl

private theorem finish_counts {serverPaged : Bool} {shown : Option Value} {total : Int} {result : ResultSet}
    (ran : (finishCollection state request entity query serverPaged shown total result).run database = .ok response) :
    Refused response ∨ (serverPaged = true → (result.rows.length : Int) = query.top → total < 0 →
      ∃ compiled counting, compileCount query entity = .ok compiled ∧ database (.query compiled.sql) = .ok (.ok counting)) := by
  unfold finishCollection at ran
  simp only at ran
  split at ran
  next => exact .inl (run_respond ran ▸ .error (by decide) (by decide))
  split at ran
  next full =>
    split at ran
    next unknown =>
      split at ran
      next => exact (run_failure ran).elim
      next compiled done =>
        rcases executing_run ran with refused | ⟨counting, answered, -⟩
        · exact .inl refused
        · exact .inr fun _ _ _ => ⟨compiled, counting, done, answered⟩
    next known => exact .inr fun _ _ unknown => absurd unknown known
  next short => exact .inr fun paged full _ => absurd ⟨paged, full⟩ short

/-- What a collection is answered with: the rows of one statement, the count of the
other one if it was asked for, and a link if a page follows. -/
structure Collects (state : ServerState) (request : HttpRequest) (entity : EdmEntity) (parsed : ODataQuery) (database : Database)
    (result : ResultSet) (shown : Option Value) (more : Bool) : Prop where
  rows : ∃ compiled, compileCollection (pagedQuery state parsed).1 entity state.maxTop = .ok compiled ∧
    database (.query compiled.sql) = .ok (.ok result)
  uncounted : parsed.count = false → shown = none
  counts : parsed.count = true → ∃ compiled counting value total, compileCount (pagedQuery state parsed).1 entity = .ok compiled ∧
    database (.query compiled.sql) = .ok (.ok counting) ∧ countOf counting = .ok (value, total) ∧ shown = some value
  asks : (pagedQuery state parsed).2 = true → (result.rows.length : Int) = (pagedQuery state parsed).1.top →
    ∃ compiled counting, compileCount (pagedQuery state parsed).1 entity = .ok compiled ∧
      database (.query compiled.sql) = .ok (.ok counting)
  follows : more = true ↔ Follows state entity parsed database result.rows.length

private theorem pagedQuery_count (state : ServerState) (parsed : ODataQuery) : (pagedQuery state parsed).1.count = parsed.count := by
  unfold pagedQuery
  split <;> rfl

private theorem compileStatements_count {maxTop : Int} {rows : CompiledQuery} {count : Option CompiledQuery}
    (done : compileStatements query entity maxTop = .ok (rows, count)) : count.isSome = query.count := by
  obtain ⟨compiled, first, done⟩ := bind_ok done
  split at done
  next counts =>
    obtain ⟨counted, second, same⟩ := bind_ok done
    cases same
    exact counts.symm
  next plain =>
    cases done
    exact (Bool.eq_false_iff.mpr plain).symm

theorem collection_run (ran : (collection state request entity parsed).run database = .ok response) :
    Refused response ∨ ∃ result shown more, Collects state request entity parsed database result shown more ∧
      response = makeJson 200 (pageWith state request entity (pagedQuery state parsed).1 shown result more).render := by
  unfold collection at ran
  simp only at ran
  rcases catching_run (by decide) (by decide) ran with refused | ⟨⟨rows, count⟩, compiled, ran⟩
  · exact .inl refused
  have present := (compileStatements_count compiled).trans (pagedQuery_count state parsed)
  obtain ⟨compiledRows, compiledCount⟩ := HandlerCalls.compileStatements_ok compiled
  cases count with
  | none =>
    have uncounted : parsed.count = false := present.symm
    rcases executing_run ran with refused | ⟨result, answered, ran⟩
    · exact .inl refused
    rcases finish_run (fun known => absurd known (by decide)) ran with refused | ⟨more, same, -, follows⟩
    · exact .inl refused
    rcases finish_counts ran with refused | asks
    · exact .inl refused
    refine .inr ⟨result, none, more, ⟨⟨rows, compiledRows, answered⟩, fun _ => rfl, ?_, ?_, follows⟩, same⟩
    · rw [uncounted]
      nofun
    · exact fun paged full => asks paged full (by decide)
  | some counting =>
    have counted : parsed.count = true := present.symm
    rcases executing_run ran with refused | ⟨counts, total, ran⟩
    · exact .inl refused
    split at ran
    next => exact (run_failure ran).elim
    next shown known counts' =>
      rcases executing_run ran with refused | ⟨result, answered, ran⟩
      · exact .inl refused
      have knows := countOf_counted (compiledCount counting rfl) total counts' result.rows.length
      rcases finish_run (fun _ => knows) ran with refused | ⟨more, same, -, follows⟩
      · exact .inl refused
      refine .inr ⟨result, some shown, more, ⟨⟨rows, compiledRows, answered⟩, ?_, ?_, ?_, follows⟩, same⟩
      · rw [counted]
        nofun
      · exact fun _ => ⟨counting, counts, shown, known, compiledCount counting rfl, total, counts', rfl⟩
      · exact fun _ _ => ⟨counting, counts, compiledCount counting rfl, total⟩

/-- The statement of a collection request. -/
def pageSelect (state : ServerState) (entity : EdmEntity) (parsed : ODataQuery) : Sql.Select :=
  selectOf entity (.collection (pagedQuery state parsed).1 state.maxTop)

/-- The server pages, its pages are as long as it says, and there are rows after
this one. -/
def Continued (state : ServerState) (parsed : ODataQuery) (total : Nat) : Prop :=
  0 < state.pageSize ∧ parsed.top < 0 ∧ Paging.Uncapped state ∧ currentSkip parsed + state.pageSize < total

instance (state : ServerState) (parsed : ODataQuery) (total : Nat) : Decidable (Continued state parsed total) :=
  inferInstanceAs (Decidable (_ ∧ _ ∧ (_ ∨ _) ∧ _))

/-- A page of what the query selects from the rows of a table. -/
structure Selected (tables : Tables Record α) (state : ServerState) (request : HttpRequest) (entity : EdmEntity) (parsed : ODataQuery)
    (records arranged : List Record) (page : CollectionPage) : Prop where
  arranges : (pageSelect state entity parsed).Arranges tables.engine records arranged
  context : page.context = entityContextUri state entity.name false
  names : page.result.names = columnsOf tables entity parsed
  rows : page.result.rows = ((pageSelect state entity parsed).cut arranged).map (rowOf tables entity parsed)
  count : page.count = if parsed.count then some (.integer arranged.length) else none
  link : page.nextLink = if Continued state parsed arranged.length then
    some (nextLink request (currentSkip parsed + state.pageSize)) else none

private theorem currentSkip_paged (state : ServerState) (parsed : ODataQuery) :
    currentSkip (pagedQuery state parsed).1 = currentSkip parsed := by
  unfold pagedQuery
  split <;> rfl

private theorem currentSkip_toNat (query : ODataQuery) : currentSkip query = query.skip.toNat := by
  unfold currentSkip
  split <;> omega

private theorem separated_paged (state : ServerState) (separated : SeparatedFilter parsed) : SeparatedFilter (pagedQuery state parsed).1 := by
  unfold pagedQuery
  split
  next => exact separated
  next => exact separated

private theorem selectionOf_paged (state : ServerState) (entity : EdmEntity) (parsed : ODataQuery) :
    selectionOf (pagedQuery state parsed).1 entity = selectionOf parsed entity := by
  unfold pagedQuery
  split <;> rfl

private theorem cut_length (paged : 0 < state.pageSize ∧ parsed.top < 0) (arranged : List Record) :
    ((pageSelect state entity parsed).cut arranged).length = min (Paging.pageRows state) (arranged.length - parsed.skip.toNat) := by
  have query : pagedQuery state parsed = ({ parsed with top := state.pageSize }, true) := if_pos paged
  have top : cappedTop { parsed with top := state.pageSize } state.maxTop = Paging.pageRows state := by
    unfold cappedTop Paging.pageRows
    simp only [if_pos paged.1.le]
    split <;> omega
  have capped : boundOf (cappedTop { parsed with top := state.pageSize } state.maxTop) = some (Paging.pageRows state) := by
    unfold boundOf
    rw [top, if_pos (Int.natCast_nonneg _), Int.toNat_natCast]
  have skipped : (boundOf parsed.skip).getD 0 = parsed.skip.toNat := by
    unfold boundOf
    split
    next => rfl
    next negative => exact (Int.toNat_of_nonpos (by omega)).symm
  unfold pageSelect selectOf Sql.Select.cut
  rw [query]
  simp only [capped, skipped]
  exact window_length _ _ _

private theorem pageRows_size (positive : 0 < state.pageSize) (size : (Paging.pageRows state : Int) = state.pageSize) :
    Paging.Uncapped state := by
  unfold Paging.pageRows at size
  unfold Paging.Uncapped
  split at size <;> omega

private theorem pageRows_uncapped (positive : 0 < state.pageSize) (uncapped : Paging.Uncapped state) :
    (Paging.pageRows state : Int) = state.pageSize := by
  unfold Paging.Uncapped at uncapped
  unfold Paging.pageRows
  split <;> omega

private theorem follows_iff {result : ResultSet} {arranged : List Record}
    (length : result.rows.length = ((pageSelect state entity parsed).cut arranged).length)
    (counts : (pagedQuery state parsed).2 = true → (result.rows.length : Int) = (pagedQuery state parsed).1.top →
      counted database (pagedQuery state parsed).1 entity = some (arranged.length : Int)) :
    Follows state entity parsed database result.rows.length ↔ Continued state parsed arranged.length := by
  have skip := currentSkip_paged state parsed
  have start := currentSkip_toNat parsed
  unfold Follows Continued
  by_cases paged : 0 < state.pageSize ∧ parsed.top < 0
  · have query : pagedQuery state parsed = ({ parsed with top := state.pageSize }, true) := if_pos paged
    have rows := length.trans (cut_length paged arranged)
    rw [query] at counts skip ⊢
    dsimp only at skip
    simp only [true_and, forall_const] at counts ⊢
    constructor
    · intro ⟨full, count, known, more⟩
      cases known.symm.trans (counts full)
      have size : (Paging.pageRows state : Int) = state.pageSize := by
        have capped : (Paging.pageRows state : Int) ≤ state.pageSize := by
          unfold Paging.pageRows
          split <;> omega
        omega
      exact ⟨paged.1, paged.2, pageRows_size paged.1 size, by omega⟩
    · intro ⟨_, _, uncapped, more⟩
      have size := pageRows_uncapped paged.1 uncapped
      have full : (result.rows.length : Int) = state.pageSize := by omega
      exact ⟨full, arranged.length, counts full, by omega⟩
  · have query : pagedQuery state parsed = (parsed, false) := if_neg paged
    rw [query]
    constructor
    · intro ⟨other, _⟩
      cases other
    · intro ⟨positive, unlimited, _⟩
      exact absurd ⟨positive, unlimited⟩ paged

/-- A collection is answered with an error or with a page of the rows that the query
selects from the table: those that the filter keeps, sorted, from `$skip` on, no more
than `$top`, the page size and the cap allow. The count is that of all rows that the
filter keeps, and there is a link exactly if the server pages and rows are left. -/
theorem collection_selected {binding : EntityBinding} {built : EdmEntity} (read : BodyReader)
    (reaches : Reaches state catalog request binding built parsed) (keyless : (parseRoute state request.path).keys = [])
    (types : WellFormedTypes (applyColumnPolicy built binding)) (separated : SeparatedFilter parsed)
    (describes : Describes tables database) (known : tables.find (tablePath (applyColumnPolicy built binding)) = some records)
    (ran : (handleODataRequest read state catalog request).run database = .ok response) :
    Refused response ∨ ∃ page arranged,
      Selected tables state request (applyColumnPolicy built binding) parsed records arranged page ∧
        response = makeJson 200 page.render := by
  rw [reaches.handles, if_neg (not_not.mpr keyless)] at ran
  generalize applyColumnPolicy built binding = entity at *
  rcases collection_run ran with refused | ⟨result, shown, more, collects, same⟩
  · exact .inl refused
  obtain ⟨compiled, done, answered⟩ := collects.rows
  have separated' := separated_paged state separated
  have select := statement_selects types (.collection _ _) done separated'
  have answers := describes _ _ records result select known answered
  have columns := selectionOf_paged state entity parsed
  obtain ⟨arranged, arranges, rows⟩ := answers.rows.arranged (selectionOf_listed _ entity)
  rw [show (selectOf entity (.collection (pagedQuery state parsed).1 state.maxTop)).selection = selectionOf parsed entity from columns]
    at rows
  have total : (kept tables entity (pagedQuery state parsed).1 records).length = arranged.length := arranges.length.symm
  have counts : (pagedQuery state parsed).2 = true → (result.rows.length : Int) = (pagedQuery state parsed).1.top →
      counted database (pagedQuery state parsed).1 entity = some (arranged.length : Int) := by
    intro paged full
    obtain ⟨compiled, counting, done, answered⟩ := collects.asks paged full
    rw [counted_kept types separated' describes known done answered, total]
  have length : result.rows.length = ((pageSelect state entity parsed).cut arranged).length :=
    (congrArg List.length rows).trans (List.length_map _)
  have follows := collects.follows.trans (follows_iff length counts)
  refine .inr ⟨_, arranged, ⟨arranges, rfl, ?_, rows, ?_, ?_⟩, same⟩
  · exact answers.names.trans (congrArg (tables.header (tablePath entity)) columns)
  · change shown = _
    cases asked : parsed.count with
    | false => exact collects.uncounted asked
    | true =>
      obtain ⟨compiled, counting, value, number, done, answered, counts, rfl⟩ := collects.counts asked
      have first := counting_first types separated' describes known done answered
      unfold countOf at counts
      rw [first] at counts
      cases counts
      rw [total]
      rfl
  · change (if more = true then _ else none) = _
    by_cases continued : Continued state parsed arranged.length
    · have full : (result.rows.length : Int) = state.pageSize := by
        have query : pagedQuery state parsed = ({ parsed with top := state.pageSize }, true) := if_pos ⟨continued.1, continued.2.1⟩
        have page := (collects.follows.mp (follows.mpr continued)).2.1
        rw [query] at page
        exact page
      rw [if_pos (follows.mpr continued), if_pos continued, currentSkip_paged, full]
    · rw [if_neg (mt follows.mp continued), if_neg continued]

/-- A key value as the database reads it. -/
def keyDatum (values : Sql.Values α) (prop : EdmProperty) (rawValue : Str) : Sql.Datum α :=
  if prop.edmType = .string ∨ prop.edmType = .guid ∨ prop.edmType = .binary then values.string (unquoteKey rawValue)
  else values.cast (values.string (unquoteKey rawValue)) ((Sql.lex prop.duckdbType).getD [])

/-- The row has the value in every key column. -/
def Identified (tables : Tables Record α) (entity : EdmEntity) (rawValue : Str) (record : Record) : Prop :=
  ∀ prop ∈ entity.properties, prop.isKey = true → ∃ value, tables.engine.column record prop.name = some value ∧
    tables.engine.values.equal value (keyDatum tables.engine.values prop rawValue) = true

private theorem keeps_key (values : Sql.Values α) (row : Str → Option (Sql.Datum α)) (prop : EdmProperty) (rawValue : Str) :
    Sql.Keeps values row (keyTree (prop, rawValue)) ↔
      ∃ value, row prop.name = some value ∧ values.equal value (keyDatum values prop rawValue) = true := by
  have literal : Sql.eval values row (if prop.edmType = .string ∨ prop.edmType = .guid ∨ prop.edmType = .binary then
      .string (unquoteKey rawValue) else .cast (.string (unquoteKey rawValue)) ((Sql.lex prop.duckdbType).getD [])) =
      some (keyDatum values prop rawValue) := by
    unfold keyDatum
    split
    next => rfl
    next => rfl
  unfold Sql.Keeps keyTree
  rw [Sql.eval, literal, Sql.eval]
  cases row prop.name with
  | none => simp [Sql.Values.truth]
  | some value => simp [Sql.Values.truth, Sql.Values.related]

private theorem kept_key (tables : Tables Record α) (query : ODataQuery) (rawValue : Str) {keys : List EdmProperty}
    {prop : EdmProperty} (only : keys = [prop])
    (same : entity.properties.filter (·.isKey) = keys) (record : Record) :
    tables.engine.kept (selectOf entity (.byKey query [rawValue])).condition record = true ↔ Identified tables entity rawValue record := by
  have condition : (selectOf entity (.byKey query [rawValue])).condition = some (keyTree (prop, rawValue)) := by
    unfold selectOf keyConditions
    rw [same, only]
    rfl
  have members : ∀ other, other ∈ entity.properties ∧ other.isKey = true ↔ other = prop := by
    intro other
    rw [← @List.mem_singleton _ other prop, ← only, ← same, List.mem_filter]
  rw [condition]
  unfold Sql.Engine.kept Identified
  rw [decide_eq_true_eq, keeps_key]
  constructor
  · intro holds other inside key
    cases (members other).mp ⟨inside, key⟩
    exact holds
  · intro holds
    obtain ⟨inside, key⟩ := (members prop).mpr rfl
    exact holds prop inside key

/-- The row of a table as an entity. -/
def entityOf (tables : Tables Record α) (state : ServerState) (entity : EdmEntity) (query : ODataQuery) (record : Record) : Str :=
  entityBody state entity (serializeMembers (columnsOf tables entity query) (rowOf tables entity query record))

private theorem lookup_answer {compiled : CompiledQuery} {result : ResultSet} {rawValue : Str}
    (done : compileByKey query entity [rawValue] = .ok compiled)
    (answers : Answers tables (selectOf entity (.byKey query [rawValue])) records result) :
    (∃ record ∈ records, Identified tables entity rawValue record ∧ serializeFirstRowMembers result =
        some (serializeMembers (columnsOf tables entity query) (rowOf tables entity query record))) ∨
      ((∀ record ∈ records, ¬ Identified tables entity rawValue record) ∧ serializeFirstRowMembers result = none) := by
  obtain ⟨prop, only⟩ := List.length_eq_one_iff.mp (compileByKey_ok done).1.symm
  have identified := kept_key tables query rawValue only rfl
  obtain ⟨arranged, arranges, rows⟩ := answers.rows.arranged (selectionOf_listed _ entity)
  have matching : ∀ record, record ∈ arranged ↔ record ∈ records ∧ Identified tables entity rawValue record := by
    intro record
    rw [arranges.rows.mem_iff, Sql.Select.matching, List.mem_filter, identified]
  cases arranged with
  | nil =>
    right
    constructor
    · intro record member holds
      exact List.not_mem_nil ((matching record).mpr ⟨member, holds⟩)
    · have empty : result.chunks.flatten = [] := rows
      have none : result.chunks = [] := by
        apply List.eq_nil_iff_forall_not_mem.mpr
        intro chunk member
        exact answers.chunks chunk member (List.flatten_eq_nil_iff.mp empty chunk member)
      unfold serializeFirstRowMembers
      rw [none]
  | cons record others =>
    left
    obtain ⟨member, holds⟩ := (matching record).mp List.mem_cons_self
    obtain ⟨first, later, listed⟩ := first_chunk answers.chunks rows
    refine ⟨record, member, holds, ?_⟩
    unfold serializeFirstRowMembers
    rw [listed, answers.names]
    rfl

/-- A key that names a row is answered with such a row, and one that names none with
404. Otherwise the database has not answered, and there is an error. -/
theorem key_selected {binding : EntityBinding} {built : EdmEntity} {rawValue : Str} (read : BodyReader)
    (reaches : Reaches state catalog request binding built parsed) (keyed : (parseRoute state request.path).keys = [rawValue])
    (types : WellFormedTypes (applyColumnPolicy built binding)) (describes : Describes tables database)
    (known : tables.find (tablePath (applyColumnPolicy built binding)) = some records)
    (ran : (handleODataRequest read state catalog request).run database = .ok response) :
    (∃ record ∈ records, Identified tables (applyColumnPolicy built binding) rawValue record ∧
      response = makeJson 200 (entityOf tables state (applyColumnPolicy built binding) parsed record)) ∨
    ((∀ record ∈ records, ¬ Identified tables (applyColumnPolicy built binding) rawValue record) ∧
      response = makeError 404 "NotFound" "entity with key not found".toList) ∨
    (Refused response ∧ ∀ compiled, compileByKey parsed (applyColumnPolicy built binding) [rawValue] = .ok compiled →
      ∀ result, database (.query compiled.sql) ≠ .ok (.ok result)) := by
  have hasKey := @Entities.applyColumnPolicy_hasKey _ binding _ reaches.resolved
  rw [reaches.handles, if_pos (by rw [keyed]; exact List.cons_ne_nil _ _), keyed] at ran
  generalize applyColumnPolicy built binding = entity at *
  by_cases answered : ∃ compiled result, compileByKey parsed entity [rawValue] = .ok compiled ∧
    database (.query compiled.sql) = .ok (.ok result)
  · obtain ⟨compiled, result, done, found⟩ := answered
    obtain ⟨prop, only⟩ := List.length_eq_one_iff.mp (compileByKey_ok done).1.symm
    have member : prop ∈ entity.properties.filter (·.isKey) := only ▸ List.mem_singleton_self prop
    have has := hasKey.mpr ⟨prop, List.mem_filter.mp member⟩
    have select := statement_selects types (.byKey parsed [rawValue]) done trivial
    have answer := lookup_answer done (describes _ _ records result select known found)
    unfold keyLookup at ran
    rw [if_neg (by rw [has]; nofun), if_neg (by simp), done] at ran
    have answer' := (executing_answered _ found).symm.trans ran
    rcases answer with ⟨record, inside, holds, first⟩ | ⟨absent, first⟩
    · rw [first] at answer'
      exact .inl ⟨record, inside, holds, (run_respond answer').trans rfl⟩
    · rw [first] at answer'
      exact .inr (.inl ⟨absent, run_respond answer'⟩)
  · right
    right
    rcases keyLookup_run ran with refused | ⟨members, ⟨compiled, result, done, found, -⟩, -⟩
    · refine ⟨refused, ?_⟩
      intro compiled done result found
      exact answered ⟨compiled, result, done, found⟩
    · exact absurd ⟨compiled, result, done, found⟩ answered

open KeyRoutes Entities Segmentation

/-- Numbers, in the column that any name stands for. -/
private def numbering : Sql.Engine Nat Nat Row where
  values := {
    number := fun _ digits => .other (Nat.ofDigitChars 10 digits 0)
    string := fun digits => .other (Nat.ofDigitChars 10 digits 0)
    cast := fun value _ => value
    call := fun _ _ => none
    equal := fun one other => decide (one = other)
    less := fun one other => match one, other with
      | .other one, .other other => decide (one < other)
      | _, _ => false
    holds := fun number => number != 0 }
  column number _ := some (.other number)
  compare term := if term.descending then fun one other => Ord.compare other one else Ord.compare
  lawful term := by
    cases term.descending with
    | true => exact inferInstanceAs (Std.TransCmp fun one other => Ord.compare other one)
    | false => exact inferInstanceAs (Std.TransCmp Ord.compare)
  shown _ number := [.integer number]
  number total := [.integer total]

private theorem numbering_counts (n : Nat) : numbering.number n = [.integer n] := rfl

private theorem numbering_shaped (_ : List Str) (selection : Sql.Selection) (record : Nat) :
    (numbering.shown selection record).length = ["a".toList].length := rfl

private theorem numbering_counted (_ : List Str) (_ : Str) : ["a".toList].length = 1 := rfl

private def numbers (records : List Nat) : Tables Nat Nat where
  engine := numbering
  find _ := some records
  header _ _ := ["a".toList]
  counts := numbering_counts
  shaped := numbering_shaped
  counted := numbering_counted

private def binding : EntityBinding := { name := "people".toList, table := "t".toList }

private theorem bigint_types : WellFormedTypes (applyColumnPolicy bigintEntity binding) := by
  intro prop member
  cases List.mem_singleton.mp member
  exact .bigint

private def asking (path query : String) (options : List (Str × Str)) : HttpRequest where
  method := "GET".toList
  path := path.toList
  rawQuery := query.toList
  query := options

/-- Two rows a page, in order. -/
private def ordered : HttpRequest := asking "/odata/people" "$orderby=a&$count=true" [("$orderby".toList, "a".toList), ("$count".toList, "true".toList)]

private def orderedQuery : ODataQuery where
  entitySet := "people".toList
  orderBy := [{ property := "a".toList }]
  count := true

private theorem ordered_reaches : Reaches (Paging.serving 2 10000) bigintColumn ordered binding bigintEntity orderedQuery where
  reads := rfl
  authorized := rfl
  admitted busy := absurd busy.1 (Int.lt_irrefl 0)
  resource := ⟨rfl, rfl, rfl⟩
  named := by decide
  found := rfl
  supported := rfl
  parsed := rfl
  resolved := rfl

theorem collection_selected_ordered : ∃ response,
    (handleODataRequest (fun _ => none) (Paging.serving 2 10000) bigintColumn ordered).run (evaluating (numbers [3, 1, 4, 2])) = .ok response ∧
    (Refused response ∨ ∃ page arranged, Selected (numbers [3, 1, 4, 2]) (Paging.serving 2 10000) ordered bigintEntity orderedQuery
      [3, 1, 4, 2] arranged page ∧ response = makeJson 200 page.render) := by
  have ran : (handleODataRequest (fun _ => none) (Paging.serving 2 10000) bigintColumn ordered).run (evaluating (numbers [3, 1, 4, 2])) = .ok _ := rfl
  exact ⟨_, ran, collection_selected _ ordered_reaches rfl bigint_types nofun (evaluating_describes _) rfl ran⟩

private def second : HttpRequest := asking "/odata/people(2)" "" []

private theorem second_reaches : Reaches (Paging.serving 2 10000) bigintColumn second binding bigintEntity { entitySet := "people".toList } where
  reads := rfl
  authorized := rfl
  admitted busy := absurd busy.1 (Int.lt_irrefl 0)
  resource := ⟨rfl, rfl, rfl⟩
  named := by decide
  found := rfl
  supported := rfl
  parsed := rfl
  resolved := rfl

theorem key_selected_second : ∃ response,
    (handleODataRequest (fun _ => none) (Paging.serving 2 10000) bigintColumn second).run (evaluating (numbers [3, 1, 4, 2])) = .ok response ∧
    ((∃ record ∈ [3, 1, 4, 2], Identified (numbers [3, 1, 4, 2]) bigintEntity "2".toList record ∧
        response = makeJson 200 (entityOf (numbers [3, 1, 4, 2]) (Paging.serving 2 10000) bigintEntity { entitySet := "people".toList } record)) ∨
      ((∀ record ∈ [3, 1, 4, 2], ¬ Identified (numbers [3, 1, 4, 2]) bigintEntity "2".toList record) ∧
        response = makeError 404 "NotFound" "entity with key not found".toList) ∨
      (Refused response ∧ ∀ compiled, compileByKey { entitySet := "people".toList } bigintEntity ["2".toList] = .ok compiled →
        ∀ result, evaluating (numbers [3, 1, 4, 2]) (.query compiled.sql) ≠ .ok (.ok result))) := by
  have ran : (handleODataRequest (fun _ => none) (Paging.serving 2 10000) bigintColumn second).run (evaluating (numbers [3, 1, 4, 2])) =
    .ok _ := rfl
  exact ⟨_, ran, key_selected _ second_reaches rfl bigint_types (evaluating_describes _) rfl ran⟩

end DuckdbOdata.SelectedRows
