import DuckdbOdata.Foundation.JsonFailures
import DuckdbOdata.Proofs.JsonTexts
import DuckdbOdata.Proofs.KeyRoutes
import DuckdbOdata.Proofs.Responses

/-! Which GET requests are answered with a well-formed JSON body. All texts are
escaped except the context, which is the base path and the name of the entity,
and the numbers that the database prints. -/

namespace DuckdbOdata.JsonBodies
open Text Json Binary64 JsonTexts JsonEscapes Responses Routes

/-- The start of a body, up to the end of the context. -/
def contextText (context : Str) : Str := "\x7b\"@odata.context\":\"".toList ++ context

/-- A member: its name, the raw name, the text of its value, and the value. -/
structure Member where
  name : Str
  raw : Str
  print : Str
  value : Json.Value

def bodyText (context : Str) (members : List Member) : Str :=
  contextText context ++ '"' :: ',' :: continued Member.print Member.raw members

/-- The context alone makes a JSON text. -/
def ContextFramed (context : Str) : Prop := Framed (contextText context)

instance (context : Str) : Decidable (ContextFramed context) := inferInstanceAs (Decidable (_ = true))

private theorem context_front :
    "\x7b\"@odata.context\":\"".toList = '\x7b' :: '"' :: ("@odata.context".toList ++ ['"', ':', '"']) := by
  repeat rw [String.toList_ofList]
  rfl

private theorem context_name : Spells "@odata.context".toList "@odata.context".toList := .plain (every (by decide))

/-- A context without quotes, backslashes and control characters is framed. -/
theorem contextFramed_plain {context : Str} (plain : ∀ c ∈ context, c ≠ '"' ∧ c ≠ '\\' ∧ 32 ≤ c.toNat) : ContextFramed context := by
  have whole := Closes.object (fun text : Str => '"' :: (text ++ ['"'])) .string (fun _ => "@odata.context".toList)
    (fun _ => "@odata.context".toList) [context] (fun _ _ => context_name) fun text member =>
      List.mem_singleton.mp member ▸ (Closes.string (.plain plain)).reads
  have same : contextText context ++ ['"', '\x7d'] = '\x7b' :: ([','].intercalate ([context].map fun text =>
      '"' :: ("@odata.context".toList ++ '"' :: ':' :: '"' :: (text ++ ['"']))) ++ ['\x7d']) := by
    unfold contextText
    rw [context_front]
    simp
  unfold ContextFramed Framed
  rw [same, whole.read]
  rfl

private theorem at_stray : Stray '@' := by
  refine ⟨rfl, ?_⟩
  decide

private theorem letter_stray : Stray 'v' := by
  refine ⟨rfl, ?_⟩
  decide

/-- A number that the database prints consists of digits, signs and points. -/
def Printed (value : Value) : Prop := ∀ shown, value = .numeric shown → ∀ c ∈ shown, Json.numeric c

/-- Every number in the database's answers does. -/
def PrintsNumbers (database : Database) : Prop :=
  ∀ sql result, database (.query sql) = .ok (.ok result) → ∀ row ∈ result.rows, ∀ value ∈ row, Printed value

private theorem value_reads_or_fails {value : Value} (printed : Printed value) :
    Numeric value ∧ Reads (valueToJson value) (jsonOf value) ∨ ¬ Numeric value ∧ Fails (valueToJson value) := by
  by_cases numeric : Numeric value
  · exact .inl ⟨numeric, valueToJson_reads numeric⟩
  · right
    apply And.intro numeric
    cases value with
    | numeric shown =>
      have other : isNumber shown = false := by
        by_contra number
        apply numeric
        intro same equal
        cases equal
        simpa using number
      exact .number (printed shown rfl) other
    | _ => exact absurd (fun _ same => by cases same) numeric

theorem value_reads_iff {value : Value} (printed : Printed value) :
    Reads (valueToJson value) (jsonOf value) ↔ Numeric value := by
  constructor
  · intro reads
    rcases value_reads_or_fails printed with ⟨numeric, -⟩ | ⟨-, fails⟩
    · exact numeric
    · exact absurd fails reads.not_fails
  · exact valueToJson_reads

/-- The members of a row as they are written. -/
def rowItems (names : List Str) (row : Row) : List Member :=
  (names.zip row).map fun (name, value) => ⟨name, jsonEscape name, valueToJson value, jsonOf value⟩

private theorem rowItems_names (names : List Str) (row : Row) :
    ∀ item ∈ names.zip row, Spells (jsonEscape item.1) item.1 := fun item _ => jsonEscape_spells item.1

private theorem column_listed {names : List Str} {row : Row} {value : Value} (shaped : row.length = names.length)
    (member : value ∈ row) : ∃ item ∈ names.zip row, item.2 = value := by
  have column : value ∈ (names.zip row).map Prod.snd := by
    rwa [List.map_snd_zip shaped.le]
  exact List.mem_map.mp column

private theorem serializeMembers_items (names : List Str) (row : Row) : serializeMembers names row =
    [','].intercalate ((names.zip row).map fun item => '"' :: (jsonEscape item.1 ++ '"' :: ':' :: valueToJson item.2)) := by
  simp [serializeMembers, jsonString]

private theorem row_closes_or_breaks {names : List Str} {row : Row} (shaped : row.length = names.length)
    (printed : ∀ value ∈ row, Printed value) :
    (∀ value ∈ row, Numeric value) ∧ Closes ('\x7b' :: (serializeMembers names row ++ ['\x7d'])) (.object (rowMembers names row)) ∨
      (¬ ∀ value ∈ row, Numeric value) ∧ Breaks ('\x7b' :: (serializeMembers names row ++ ['\x7d'])) := by
  by_cases numeric : ∀ value ∈ row, Numeric value
  · exact .inl ⟨numeric, rowObject_closes numeric⟩
  · right
    apply And.intro numeric
    rw [serializeMembers_items]
    apply Breaks.object (fun item => valueToJson item.2) (fun item => jsonOf item.2) (fun item => jsonEscape item.1) Prod.fst
      (names.zip row) (rowItems_names names row)
    · intro item member
      rcases value_reads_or_fails (printed item.2 (List.of_mem_zip member).2) with ⟨-, reads⟩ | ⟨-, fails⟩
      · exact .inl reads
      · exact .inr fails
    · simp only [not_forall] at numeric
      obtain ⟨value, member, other⟩ := numeric
      obtain ⟨item, listed, rfl⟩ := column_listed shaped member
      rcases value_reads_or_fails (printed item.2 member) with ⟨same, -⟩ | ⟨-, fails⟩
      · exact absurd same other
      · exact ⟨item, listed, fails⟩

/-- Every value of the rows is a JSON value. -/
def NumericRows (result : ResultSet) : Prop := ∀ row ∈ result.rows, ∀ value ∈ row, Numeric value

def rowsText (result : ResultSet) : Str := '[' :: ((serializeRows result).1 ++ [']'])

private theorem rows_reads_or_fails {result : ResultSet} (printed : ∀ row ∈ result.rows, ∀ value ∈ row, Printed value) :
    NumericRows result ∧ Reads (rowsText result) (rowsArray result) ∨ ¬ NumericRows result ∧ Fails (rowsText result) := by
  have shaped : ∀ row ∈ result.rows, row.length = result.names.length := by
    intro row member
    obtain ⟨chunk, listed, inside⟩ := List.mem_flatten.mp member
    exact result.shaped chunk listed row inside
  by_cases numeric : NumericRows result
  · exact .inl ⟨numeric, (serializeRows_closes numeric).reads⟩
  · right
    apply And.intro numeric
    apply Breaks.fails
    apply Breaks.array (fun row => .object (rowMembers result.names row)) result.rows
    · intro row member
      rcases row_closes_or_breaks (shaped row member) (printed row member) with ⟨-, closes⟩ | ⟨-, breaks⟩
      · exact .inl closes
      · exact .inr breaks
    · unfold NumericRows at numeric
      simp only [not_forall] at numeric
      obtain ⟨row, member, value, inside, other⟩ := numeric
      rcases row_closes_or_breaks (shaped row member) (printed row member) with ⟨same, -⟩ | ⟨-, breaks⟩
      · exact absurd (same value inside) other
      · exact ⟨row, member, breaks⟩

/-- The members of a page. -/
def pageMembers (page : CollectionPage) : List Member :=
  (page.count.toList.map fun count => ⟨"@odata.count".toList, "@odata.count".toList, valueToJson count, jsonOf count⟩) ++
    (page.nextLink.toList.map fun link => ⟨"@odata.nextLink".toList, "@odata.nextLink".toList, jsonString link, .string link⟩) ++
    [⟨"value".toList, "value".toList, rowsText page.result, rowsArray page.result⟩]

theorem render_body (page : CollectionPage) : page.render = bodyText page.context (pageMembers page) := by
  have count : ",\"@odata.count\":".toList = ',' :: '"' :: ("@odata.count".toList ++ ['"', ':']) := by
    repeat rw [String.toList_ofList]
    rfl
  have link : ",\"@odata.nextLink\":\"".toList = ',' :: '"' :: ("@odata.nextLink".toList ++ ['"', ':', '"']) := by
    repeat rw [String.toList_ofList]
    rfl
  have value : ",\"value\":[".toList = ',' :: '"' :: ("value".toList ++ ['"', ':', '[']) := by
    repeat rw [String.toList_ofList]
    rfl
  have quote : "\"".toList = ['"'] := rfl
  have back : "]\x7d".toList = [']', '\x7d'] := rfl
  obtain ⟨context, counted, next, result⟩ := page
  unfold CollectionPage.render pageHead bodyText contextText continued pageMembers rowsText
  rw [count, link, value, quote, back]
  cases counted <;> cases next <;> simp [jsonString]

theorem entityBody_body (state : ServerState) (entity : EdmEntity) (names : List Str) (row : Row) :
    entityBody state entity (serializeMembers names row) = bodyText (entityContextUri state entity.name true) (rowItems names row) := by
  have comma : "\",".toList = ['"', ','] := rfl
  have back : "\x7d".toList = ['\x7d'] := rfl
  unfold entityBody bodyText contextText continued rowItems
  rw [comma, back, serializeMembers_items]
  simp [Function.comp_def]

/-- The entry of the service document for every binding that resolves. -/
def serviceMember (state : ServerState) (catalog : Catalog) : Member where
  name := "value".toList
  raw := "value".toList
  print := '[' :: ([','].intercalate ((state.bindings.filter (resolves catalog)).map serviceElement) ++ [']'])
  value := .array ((state.bindings.filter (resolves catalog)).map fun binding => entryOf binding.name)

theorem serviceDocument_body (state : ServerState) (catalog : Catalog) :
    serviceDocument state catalog = bodyText (state.basePath ++ "/$metadata".toList) [serviceMember state catalog] := by
  have middle : "/$metadata\",\"value\":[".toList =
      "/$metadata".toList ++ '"' :: ',' :: '"' :: ("value".toList ++ ['"', ':', '[']) := by
    repeat rw [String.toList_ofList]
    rfl
  have back : "]\x7d".toList = [']', '\x7d'] := rfl
  have comma : ",".toList = [','] := rfl
  unfold serviceDocument bodyText contextText continued serviceMember
  rw [middle, back, comma]
  simp

private theorem errorCodes_plain : ∀ code ∈ errorCodes, ∀ c ∈ code.toList, c ≠ '"' ∧ c ≠ '\\' ∧ 32 ≤ c.toNat := by
  have all : errorCodes.all (fun code => code.toList.all fun c => decide (c ≠ '"' ∧ c ≠ '\\' ∧ 32 ≤ c.toNat)) = true := by decide
  exact fun code known => every (List.all_eq_true.mp all code known)

/-- The members of an error: name, raw text and text. -/
private def errorParts (code : String) (message : Str) : List (Str × Str × Str) :=
  [("code".toList, code.toList, code.toList), ("message".toList, jsonEscape message, message)]

private def errorObject (code : String) (message : Str) : Str :=
  '\x7b' :: ([','].intercalate ((errorParts code message).map fun item =>
    '"' :: (item.1 ++ '"' :: ':' :: '"' :: (item.2.1 ++ ['"']))) ++ ['\x7d'])

private theorem errorParts_names (code : String) (message : Str) : ∀ item ∈ errorParts code message, Spells item.1 item.1 := by
  intro item member
  simp only [errorParts, List.mem_cons, List.not_mem_nil, or_false] at member
  rcases member with rfl | rfl
  all_goals
    dsimp only
    exact .plain (every (by decide))

private theorem errorParts_texts {code : String} (known : code ∈ errorCodes) (message : Str) :
    ∀ item ∈ errorParts code message, Reads ('"' :: (item.2.1 ++ ['"'])) (.string item.2.2) := by
  intro item member
  simp only [errorParts, List.mem_cons, List.not_mem_nil, or_false] at member
  rcases member with rfl | rfl
  · exact (Closes.string (.plain (errorCodes_plain code known))).reads
  · exact (Closes.string (jsonEscape_spells message)).reads

private def errorValue (code : String) (message : Str) : Json.Value :=
  .object ((errorParts code message).map fun item => (item.1, .string item.2.2))

private theorem errorObject_closes {code : String} (known : code ∈ errorCodes) (message : Str) :
    Closes (errorObject code message) (errorValue code message) :=
  Closes.object (fun item : Str × Str × Str => '"' :: (item.2.1 ++ ['"'])) (fun item => .string item.2.2) Prod.fst Prod.fst
    (errorParts code message) (errorParts_names code message) (errorParts_texts known message)

private theorem makeError_parts (status : Nat) (code : String) (message : Str) : (makeError status code message).body =
    '\x7b' :: ([','].intercalate ([()].map fun _ => '"' :: ("error".toList ++ '"' :: ':' :: errorObject code message)) ++ ['\x7d']) := by
  have front : "\x7b\"error\":\x7b\"code\":\"".toList =
      '\x7b' :: '"' :: ("error".toList ++ '"' :: ':' :: '\x7b' :: '"' :: ("code".toList ++ ['"', ':', '"'])) := by
    repeat rw [String.toList_ofList]
    rfl
  have middle : "\",\"message\":\"".toList = '"' :: ',' :: '"' :: ("message".toList ++ ['"', ':', '"']) := by
    repeat rw [String.toList_ofList]
    rfl
  have back : "\"\x7d\x7d".toList = ['"', '\x7d', '\x7d'] := rfl
  simp only [errorObject, errorParts, List.map_cons, List.map_nil, List.intercalate_cons_cons, List.intercalate_singleton]
  unfold makeError
  rw [front, middle, back]
  simp only [List.cons_append, List.nil_append, List.append_assoc]

/-- The body of an error is a JSON text, whatever its message. -/
theorem makeError_reads {code : String} (known : code ∈ errorCodes) (status : Nat) (message : Str) :
    (read (makeError status code message).body).isSome = true := by
  have closes := errorObject_closes known message
  have whole := Closes.object (fun _ => errorObject code message) (fun _ => errorValue code message) (fun _ => "error".toList)
    (fun _ => "error".toList) [()] (fun _ _ => .plain (every (by decide))) fun _ _ => closes.reads
  rw [makeError_parts, whole.read]
  rfl

/-- What a GET request is answered with in JSON. -/
inductive Answer
  | error (status : Nat) (code : String) (message : Str)
  | health
  | service
  | collection (entity : EdmEntity) (page : CollectionPage)
  | single (entity : EdmEntity) (names : List Str) (row : Row)

namespace Answer

def response (state : ServerState) (catalog : Catalog) : Answer → HttpResponse
  | error status code message => makeError status code message
  | health => makeJson 200 "\x7b\"status\":\"ok\"\x7d".toList
  | service => makeJson 200 (serviceDocument state catalog)
  | collection _ page => makeJson 200 page.render
  | single entity names row => makeJson 200 (entityBody state entity (serializeMembers names row))

/-- The rows shown are those that the database returns for the compiled request. -/
def Given (state : ServerState) (catalog : Catalog) (request : HttpRequest) (database : Database) : Answer → Prop
  | error status code _ => status ≠ 200 ∧ code ∈ errorCodes
  | health => True
  | service => True
  | collection entity page => ∃ binding built query, Reaches state catalog request binding built query ∧
      entity = applyColumnPolicy built binding ∧ Shows state entity query database page
  | single entity names row => ∃ binding built query keys compiled result, Reaches state catalog request binding built query ∧
      entity = applyColumnPolicy built binding ∧ compileByKey query entity keys = .ok compiled ∧
      database (.query compiled.sql) = .ok (.ok result) ∧ result.names = names ∧ result.rows.head? = some row

/-- The body is a JSON text, and that of a page has the rows as its `value`. -/
def Legible (state : ServerState) (catalog : Catalog) : Answer → Prop
  | collection _ page => ∃ members, read page.render = some (.object (members ++ [("value".toList, rowsArray page.result)]))
  | answer => (read (answer.response state catalog).body).isSome = true

/-- The context is framed, and the values shown are JSON values. -/
def Clean (state : ServerState) : Answer → Prop
  | error .. => True
  | health => True
  | service => ContextFramed (state.basePath ++ "/$metadata".toList)
  | collection entity page => ContextFramed (entityContextUri state entity.name false) ∧ NumericRows page.result
  | single entity names row => ContextFramed (entityContextUri state entity.name true) ∧ names ≠ [] ∧
      ∀ value ∈ row, Numeric value

end Answer

variable {state : ServerState} {catalog : Catalog} {request : HttpRequest} {database : Database}

private theorem value_plain : Spells "value".toList "value".toList := .plain (every (by decide))

private theorem service_legible : Answer.service.Legible state catalog ↔ Answer.service.Clean state := by
  have entries : Reads (serviceMember state catalog).print (serviceMember state catalog).value :=
    (Closes.array _ fun binding _ => (serviceElement_closes binding).reads).reads
  have names : ∀ item ∈ [serviceMember state catalog], Spells item.raw item.name := by
    intro item member
    rw [List.mem_singleton.mp member]
    exact value_plain
  have values : ∀ item ∈ [serviceMember state catalog], Reads item.print item.value := by
    intro item member
    rw [List.mem_singleton.mp member]
    exact entries
  have body := read_continued_iff (contextText (state.basePath ++ "/$metadata".toList)) names
    (fun item member => .inl (values item member)) fun _ _ => .stray letter_stray
  change (read (serviceDocument state catalog)).isSome = true ↔ _
  rw [serviceDocument_body]
  apply body.trans
  constructor
  · intro ⟨framed, _⟩
    exact framed
  · intro framed
    exact ⟨framed, List.cons_ne_nil _ _, values⟩

private theorem pageMembers_names (page : CollectionPage) : ∀ item ∈ pageMembers page, Spells item.raw item.name := by
  intro item member
  simp only [pageMembers, List.mem_append, List.mem_map, List.mem_singleton] at member
  obtain (⟨count, -, rfl⟩ | ⟨link, -, rfl⟩) | rfl := member
  · dsimp only
    exact .plain (every (by decide))
  · dsimp only
    exact .plain (every (by decide))
  · exact value_plain

private theorem pageMembers_values {page : CollectionPage} (counted : ∀ value, page.count = some value → ∃ count, value = .integer count) :
    ∀ item ∈ pageMembers page, Reads item.print item.value ∨ item = ⟨"value".toList, "value".toList, rowsText page.result, rowsArray page.result⟩ := by
  intro item member
  simp only [pageMembers, List.mem_append, List.mem_map, List.mem_singleton] at member
  obtain (⟨value, present, rfl⟩ | ⟨link, -, rfl⟩) | rfl := member
  · obtain ⟨count, rfl⟩ := counted value (Option.mem_toList.mp present)
    exact .inl (.number (intText_number count))
  · exact .inl (jsonString_closes link).reads
  · exact .inr rfl

private theorem pageMembers_stray (page : CollectionPage) :
    ∃ c rest, ((pageMembers page).map Member.raw).headD [] = c :: rest ∧ Stray c := by
  have count : ∃ rest, "@odata.count".toList = '@' :: rest := ⟨_, by rw [String.toList_ofList]⟩
  have link : ∃ rest, "@odata.nextLink".toList = '@' :: rest := ⟨_, by rw [String.toList_ofList]⟩
  have value : ∃ rest, "value".toList = 'v' :: rest := ⟨_, by rw [String.toList_ofList]⟩
  obtain ⟨context, counted, next, result⟩ := page
  cases counted with
  | some counted => exact ⟨'@', count.choose, count.choose_spec, at_stray⟩
  | none =>
    cases next with
    | some next => exact ⟨'@', link.choose, link.choose_spec, at_stray⟩
    | none => exact ⟨'v', value.choose, value.choose_spec, letter_stray⟩

private theorem collection_legible {entity : EdmEntity} {page : CollectionPage} (context : page.context = entityContextUri state entity.name false)
    (counted : ∀ value, page.count = some value → ∃ count, value = .integer count)
    (printed : ∀ row ∈ page.result.rows, ∀ value ∈ row, Printed value) :
    (Answer.collection entity page).Legible state catalog ↔ (Answer.collection entity page).Clean state := by
  have names := pageMembers_names page
  have values := pageMembers_values counted
  have rows := rows_reads_or_fails printed
  have last : (⟨"value".toList, "value".toList, rowsText page.result, rowsArray page.result⟩ : Member) ∈ pageMembers page := by simp [pageMembers]
  have readsOrFails : ∀ item ∈ pageMembers page, Reads item.print item.value ∨ Fails item.print := by
    intro item member
    rcases values item member with reads | rfl
    · exact .inl reads
    · exact rows.imp And.right And.right
  have body := read_continued_iff (contextText page.context) names readsOrFails fun _ _ => by
    obtain ⟨c, rest, same, stray⟩ := pageMembers_stray page
    rw [same]
    exact .stray stray
  constructor
  · intro ⟨members, done⟩
    rw [render_body, bodyText] at done
    obtain ⟨framed, -, all⟩ := body.mp (by rw [done]; rfl)
    have numeric := (rows.resolve_right fun fails => (all _ last).not_fails fails.2).1
    exact ⟨context ▸ framed, numeric⟩
  · intro ⟨framed, numeric⟩
    have reads := (rows.resolve_right fun fails => fails.1 numeric).2
    have all : ∀ item ∈ pageMembers page, Reads item.print item.value := by
      intro item member
      rcases values item member with reads | rfl
      · exact reads
      · exact reads
    obtain ⟨members, done⟩ := read_continued (contextText page.context) (context ▸ framed) (List.ne_nil_of_mem last) names all
    refine ⟨members ++ ((pageMembers page).dropLast.map fun item => (item.name, item.value)), ?_⟩
    rw [render_body, bodyText, done]
    simp [pageMembers]

private def contextMember (context : Str) : Member :=
  ⟨"@odata.context".toList, "@odata.context".toList, '"' :: (context ++ ['"']), .string context⟩

private theorem bodyText_object (context : Str) {members : List Member} (some : members ≠ []) : bodyText context members =
    '\x7b' :: ([','].intercalate ((contextMember context :: members).map fun item => '"' :: (item.raw ++ '"' :: ':' :: item.print)) ++
      ['\x7d']) := by
  cases members with
  | nil => exact absurd rfl some
  | cons member members =>
    unfold bodyText contextText continued contextMember
    rw [context_front, List.map_cons, List.map_cons, List.map_cons, List.intercalate_cons_cons]
    simp

/-- A page whose context needs no escapes is read as its members. -/
theorem page_reads {page : CollectionPage} (plain : ∀ c ∈ page.context, c ≠ '"' ∧ c ≠ '\\' ∧ 32 ≤ c.toNat)
    (counted : ∀ value, page.count = some value → ∃ count, value = .integer count) (numeric : NumericRows page.result) :
    read page.render = some (.object (("@odata.context".toList, .string page.context) ::
      (pageMembers page).map fun item => (item.name, item.value))) := by
  have present : pageMembers page ≠ [] := by simp [pageMembers]
  rw [render_body, bodyText_object _ present]
  apply (Closes.object Member.print Member.value Member.raw Member.name (contextMember page.context :: pageMembers page) ?_ ?_).read
  · intro item member
    rcases List.mem_cons.mp member with rfl | member
    · exact context_name
    · exact pageMembers_names page item member
  · intro item member
    rcases List.mem_cons.mp member with rfl | member
    · exact (Closes.string (.plain plain)).reads
    · rcases pageMembers_values counted item member with reads | rfl
      · exact reads
      · exact (serializeRows_closes numeric).reads

private theorem entity_plain : ∀ c ∈ "$entity".toList, c ≠ '"' ∧ c ≠ '\\' ∧ 32 ≤ c.toNat := every (by decide)

private theorem rowItems_values {names : List Str} {row : Row} (shaped : row.length = names.length) :
    (∀ item ∈ rowItems names row, Reads item.print item.value) ↔ ∀ value ∈ row, Reads (valueToJson value) (jsonOf value) := by
  constructor
  · intro all value member
    obtain ⟨item, listed, rfl⟩ := column_listed shaped member
    exact all _ (List.mem_map_of_mem listed)
  · intro all item member
    obtain ⟨⟨name, value⟩, listed, rfl⟩ := List.mem_map.mp member
    exact all value (List.of_mem_zip listed).2

private theorem rowItems_spells (names : List Str) (row : Row) : ∀ item ∈ rowItems names row, Spells item.raw item.name := by
  intro item member
  obtain ⟨⟨name, value⟩, -, rfl⟩ := List.mem_map.mp member
  exact jsonEscape_spells name

private theorem entityContext_settled (state : ServerState) (entity : EdmEntity) {reached : Json.State} {next : Str}
    (ran : Json.run {} (contextText (entityContextUri state entity.name true) ++ ['"']) = some reached) : Settled reached next := by
  have ending : "/$entity".toList = '/' :: "$entity".toList := by
    repeat rw [String.toList_ofList]
  have split : contextText (entityContextUri state entity.name true) =
      ("\x7b\"@odata.context\":\"".toList ++ (state.basePath ++ "/$metadata#".toList ++ entity.name)) ++ '/' :: "$entity".toList := by
    unfold contextText entityContextUri
    rw [if_pos rfl, ending]
    simp only [List.append_assoc]
  rw [split] at ran
  exact .slash entity_plain ran

private theorem single_legible {entity : EdmEntity} {names : List Str} {row : Row} (shaped : row.length = names.length)
    (printed : ∀ value ∈ row, Printed value) :
    (Answer.single entity names row).Legible state catalog ↔ (Answer.single entity names row).Clean state := by
  have readsOrFails : ∀ item ∈ rowItems names row, Reads item.print item.value ∨ Fails item.print := by
    intro item member
    obtain ⟨⟨name, value⟩, listed, rfl⟩ := List.mem_map.mp member
    exact (value_reads_or_fails (printed value (List.of_mem_zip listed).2)).imp And.right And.right
  have body := read_continued_iff (contextText (entityContextUri state entity.name true)) (rowItems_spells names row) readsOrFails
    fun _ => entityContext_settled state entity
  have columns : rowItems names row ≠ [] ↔ names ≠ [] := by
    unfold rowItems
    cases names with
    | nil => simp
    | cons name names =>
      cases row with
      | nil => cases shaped
      | cons value row => simp
  have values : (∀ item ∈ rowItems names row, Reads item.print item.value) ↔ ∀ value ∈ row, Numeric value := by
    apply (rowItems_values shaped).trans
    exact forall₂_congr fun value member => value_reads_iff (printed value member)
  change (read (entityBody state entity (serializeMembers names row))).isSome = true ↔ _
  rw [entityBody_body]
  apply body.trans
  exact and_congr Iff.rfl (and_congr columns values)

private theorem firstRow_members {result : ResultSet} {members : Str} (first : serializeFirstRowMembers result = some members) :
    ∃ row, result.rows.head? = some row ∧ row ∈ result.rows ∧ row.length = result.names.length ∧
      members = serializeMembers result.names row := by
  unfold serializeFirstRowMembers at first
  split at first
  next row rest others chunks =>
    have listed : result.rows = row :: (rest ++ others.flatten) := by
      unfold ResultSet.rows
      rw [chunks]
      rfl
    refine ⟨row, by rw [listed]; rfl, by rw [listed]; exact List.mem_cons_self, ?_, (Option.some.inj first).symm⟩
    exact result.shaped (row :: rest) (by rw [chunks]; exact List.mem_cons_self) row List.mem_cons_self
  next => cases first

private theorem health_reads : (read "\x7b\"status\":\"ok\"\x7d".toList).isSome = true := by
  rw [String.toList_ofList]
  rfl

/-- A GET request has another answer than `$metadata` only in JSON. Whatever the
base path, the names, the rows and the database's numbers are, its body is a JSON
text with the rows as they are exactly if it is clean. -/
theorem json_bodies {read : BodyReader} {response : HttpResponse} (reads : request.method = "GET".toList)
    (prints : PrintsNumbers database)
    (ran : (handleODataRequest read state catalog request).run database = .ok response) :
    response = metadataResponse state catalog ∨ ∃ answer : Answer, answer.Given state catalog request database ∧
      response = answer.response state catalog ∧ (answer.Legible state catalog ↔ answer.Clean state) := by
  rcases read_document reads ran with ⟨status, code, message, failed, known, rfl⟩ | document
  · right
    refine ⟨.error status code message, ⟨failed, known⟩, rfl, ?_⟩
    exact iff_of_true (makeError_reads known status message) trivial
  cases document with
  | health => exact .inr ⟨.health, trivial, rfl, iff_of_true health_reads trivial⟩
  | service => exact .inr ⟨.service, trivial, rfl, service_legible⟩
  | metadata => exact .inl rfl
  | @page binding built query page reaches shows =>
    obtain ⟨compiled, done, answered⟩ := shows.rows
    refine .inr ⟨.collection _ page, ⟨binding, built, query, reaches, rfl, shows⟩, rfl, ?_⟩
    exact collection_legible shows.context shows.count (prints _ _ answered)
  | @entity binding built query keys members reaches shows =>
    obtain ⟨compiled, result, done, answered, first⟩ := shows
    obtain ⟨row, head, listed, shaped, rfl⟩ := firstRow_members first
    refine .inr ⟨.single _ result.names row, ⟨binding, built, query, keys, compiled, result, reaches, rfl, done, answered, rfl, head⟩,
      rfl, ?_⟩
    exact single_legible shaped (prints _ _ answered row listed)

open KeyRoutes

private theorem holding_prints {values : List Value} (printed : ∀ value ∈ values, Printed value) : PrintsNumbers (holding values) := by
  intro sql result same row listed value member
  cases same
  have single : row ∈ values.map fun value => [value] := by simpa [column, ResultSet.rows] using listed
  obtain ⟨held, inside, rfl⟩ := List.mem_map.mp single
  rw [List.mem_singleton.mp member]
  exact printed held inside

theorem json_bodies_people : ∃ response,
    (handleODataRequest (fun _ => none) (exposing "/odata".toList "people".toList) oneColumn
      { method := "GET".toList, path := "/odata/people".toList }).run (holding [.text "x\"y".toList]) = .ok response ∧
    (response = metadataResponse (exposing "/odata".toList "people".toList) oneColumn ∨ ∃ answer : Answer,
      answer.Given (exposing "/odata".toList "people".toList) oneColumn { method := "GET".toList, path := "/odata/people".toList }
        (holding [.text "x\"y".toList]) ∧
      response = answer.response (exposing "/odata".toList "people".toList) oneColumn ∧
      (answer.Legible (exposing "/odata".toList "people".toList) oneColumn ↔
        answer.Clean (exposing "/odata".toList "people".toList))) := by
  have prints : PrintsNumbers (holding [.text "x\"y".toList]) := by
    apply holding_prints
    intro value member shown same
    rw [List.mem_singleton.mp member] at same
    cases same
  have ran : (handleODataRequest (fun _ => none) (exposing "/odata".toList "people".toList) oneColumn
      { method := "GET".toList, path := "/odata/people".toList }).run (holding [.text "x\"y".toList]) = .ok _ := rfl
  exact ⟨_, ran, json_bodies rfl prints ran⟩

/-- The name of an entity is not escaped in the context. -/
theorem json_bodies_quote : ∃ response,
    (handleODataRequest (fun _ => none) (exposing "/odata".toList "a\"b".toList) oneColumn
      { method := "GET".toList, path := "/odata/a\"b".toList }).run (holding [.integer 1]) = .ok response ∧
    response.headers.head? = some ("Content-Type".toList, "application/json;odata.metadata=minimal;charset=utf-8".toList) ∧
    Json.read response.body = none := by
  refine ⟨makeJson 200 "\x7b\"@odata.context\":\"/odata/$metadata#a\"b\",\"value\":[\x7b\"a\":1\x7d]\x7d".toList, rfl, rfl, ?_⟩
  unfold makeJson
  rw [String.toList_ofList]
  rfl

end DuckdbOdata.JsonBodies
