import DuckdbOdata.Proofs.SqlStatements
import DuckdbOdata.Proofs.WritePlans

/-! The tokens of prepared writes. They name columns of the entity and the table
itself; every value is a parameter. -/

namespace DuckdbOdata.SqlTokens
open Text FilterGrammar WritePlans

/-- The words of an insert, an update and a delete. -/
def writeVocabulary : List Str :=
  ["INSERT", "DEFAULT", "VALUES", "SET", "DELETE", "WHERE", "RETURNING", "CAST", "AS"].map String.toList

/-- Where a lexeme of a write on `entity` may come from. -/
def Lexeme.Writes (entity : EdmEntity) : Lexeme → Prop
  | .keyword name => name ∈ writeVocabulary
  | .operator symbol => symbol = "=".toList
  | .parameter => True
  | .punctuation c => c ∈ ['(', ')', ',']
  | .column name => ∃ prop ∈ entity.properties, prop.name = name
  | .source _ path => path = [entity.catalog, entity.schema, entity.table]
  | .typeName name => ∃ prop ∈ entity.properties, prop.duckdbType = name
  | _ => False

def parameterLexemes (prop : EdmProperty) : List Lexeme :=
  [.keyword "CAST".toList, .punctuation '(', .parameter, .keyword "AS".toList, .typeName prop.duckdbType, .punctuation ')']

def assignmentLexemes (prop : EdmProperty) : List Lexeme :=
  .column prop.name :: .operator "=".toList :: parameterLexemes prop

def assignmentText (prop : EdmProperty) : Str := quoteIdentifier prop.name ++ "=".toList ++ castParameter prop

/-- The texts of a body are the lists of the properties it names. -/
structure Built (entity : EdmEntity) (built : Assignments) (props : List EdmProperty) : Prop where
  members : ∀ prop ∈ props, prop ∈ entity.properties
  columns : built.columns = ",".toList.intercalate (props.map fun prop => quoteIdentifier prop.name)
  placeholders : built.placeholders = ",".toList.intercalate (props.map castParameter)
  assignments : built.assignments = ",".toList.intercalate (props.map assignmentText)
  values : built.values.length = props.length

theorem built_none (entity : EdmEntity) : Built entity {} [] := ⟨nofun, rfl, rfl, rfl, rfl⟩

private theorem Built.comma {entity : EdmEntity} {built : Assignments} {props : List EdmProperty} (has : Built entity built props) :
    (if built.columns = [] then [] else ",".toList) = if props = [] then [] else ",".toList := by
  rw [has.columns]
  cases props with
  | nil => rfl
  | cons prop others =>
    have some : ",".toList.intercalate ((prop :: others).map fun prop => quoteIdentifier prop.name) ≠ [] := by
      cases others <;> simp [quoteIdentifier, enquote]
    rw [if_neg some, if_neg (List.cons_ne_nil prop others)]

/-- The lists with one more property. -/
def extend (built : Assignments) (field : Str) (prop : EdmProperty) (parameter : Value) : Assignments :=
  let comma := if built.columns = [] then [] else ",".toList
  { seen := toLower field :: built.seen
    columns := built.columns ++ comma ++ quoteIdentifier prop.name
    placeholders := built.placeholders ++ comma ++ castParameter prop
    assignments := built.assignments ++ comma ++ quoteIdentifier prop.name ++ "=".toList ++ castParameter prop
    values := built.values ++ [parameter] }

/-- A property that a member of the body may set. -/
structure Writable (update : Bool) (prop : EdmProperty) : Prop where
  serializable : prop.serializable = true
  textual : prop.edmType ≠ .binary
  changes : update = true → prop.isKey = false

/-- What an accepted member has passed, and what it adds. -/
theorem addMember_ok {update : Bool} {entity : EdmEntity} {built next : Assignments} {member : Str × BodyValue}
    (added : addMember update entity built member = .ok next) :
    ∃ prop parameter, toLower member.1 ∉ built.seen ∧ findProperty entity member.1 = some prop ∧ Writable update prop ∧
      bodyParameter prop member.1 member.2 = .ok parameter ∧ next = extend built member.1 prop parameter := by
  unfold addMember at added
  simp only at added
  split at added
  next => cases added
  next fresh =>
  split at added
  next => cases added
  next prop found =>
  split at added
  next => cases added
  next typed =>
  split at added
  next => cases added
  next kept =>
  obtain ⟨parameter, taken, same⟩ := bind_ok added
  cases same
  obtain ⟨serializable, textual⟩ := not_or.mp typed
  refine ⟨prop, parameter, fresh, found, ⟨by simpa using serializable, textual, fun updates => ?_⟩, taken, rfl⟩
  exact Bool.eq_false_iff.mpr fun key => kept ⟨updates, key⟩

/-- A member of the body adds its property to all lists. -/
theorem Built.add {entity : EdmEntity} {built : Assignments} {props : List EdmProperty} (has : Built entity built props)
    {prop : EdmProperty} (listed : prop ∈ entity.properties) (field : Str) (parameter : Value) :
    Built entity (extend built field prop parameter) (props ++ [prop]) := by
  have more : ∀ text : EdmProperty → Str, ",".toList.intercalate ((props ++ [prop]).map text) =
      ",".toList.intercalate (props.map text) ++ (if props = [] then [] else ",".toList) ++ text prop := by
    intro text
    simp [intercalate_concat]
  unfold extend
  refine ⟨?_, ?_, ?_, ?_, ?_⟩
  · intro other member
    rcases List.mem_append.mp member with member | member
    · exact has.members other member
    · cases List.mem_singleton.mp member
      exact listed
  · rw [more, ← has.columns, ← has.comma]
  · rw [more, ← has.placeholders, ← has.comma]
  · rw [more, ← has.assignments, ← has.comma]
    unfold assignmentText
    simp
  · simp [has.values]

/-- A fold that succeeds keeps what each of its steps keeps. -/
theorem foldlM_keeps {step : β → α → Except ε β} (kept : List α → β → Prop)
    (keeps : ∀ taken item before after, kept taken before → step before item = .ok after → kept (taken ++ [item]) after)
    (items : List α) (taken : List α) {before after : β} (first : kept taken before)
    (folded : items.foldlM step before = .ok after) : kept (taken ++ items) after := by
  induction items generalizing taken before with
  | nil =>
    cases folded
    rwa [List.append_nil]
  | cons item items ih =>
    rw [List.foldlM_cons] at folded
    obtain ⟨middle, stepped, rest⟩ := bind_ok folded
    have later := ih _ (keeps taken item before middle first stepped) rest
    rwa [List.append_assoc] at later

/-- The members that a write takes from its body. -/
def takenMembers (read : BodyReader) (request : HttpRequest) (insert update : Bool) : List (Str × BodyValue) :=
  if insert ∨ update then (read request.body).getD [] else []

theorem writeAssignments_ok {read : BodyReader} {request : HttpRequest} {entity : EdmEntity} {insert update : Bool}
    {built : Assignments} (done : writeAssignments read request entity insert update = .ok built) :
    (takenMembers read request insert update).foldlM (addMember update entity) {} = .ok built := by
  unfold writeAssignments at done
  unfold takenMembers
  split at done
  next taken =>
    rw [if_pos taken]
    split at done
    next => cases done
    split at done
    next => cases done
    next members shape =>
      rw [shape]
      obtain ⟨folded, added, kept⟩ := bind_ok done
      split at kept
      next => cases kept
      next =>
        cases kept
        exact added
  next refused =>
    rw [if_neg refused]
    split at done
    next => cases done
    next =>
      cases done
      rfl

theorem writeAssignments_built {read : BodyReader} {request : HttpRequest} {entity : EdmEntity} {insert update : Bool}
    {built : Assignments} (done : writeAssignments read request entity insert update = .ok built) :
    ∃ props, Built entity built props := by
  refine foldlM_keeps (fun _ built => ∃ props, Built entity built props) ?_ _ [] ⟨[], built_none entity⟩
    (writeAssignments_ok done)
  rintro - member before after ⟨props, has⟩ stepped
  obtain ⟨prop, parameter, -, found, -, -, rfl⟩ := addMember_ok stepped
  exact ⟨props ++ [prop], has.add (findProperty_mem found).1 _ _⟩

private theorem lexes_parameter {prop : EdmProperty} (type : WellFormedType prop.duckdbType) :
    Sql.Lexes (castParameter prop) (tokensOf (parameterLexemes prop)) := by
  have start : Sql.Opens "CAST(".toList [.word "CAST".toList, .punct '('] :=
    (lexes_keyword "CAST".toList (by decide)).opens Sql.opens_lparen rfl Sql.breaks_lparen
  have parameter := start.then (Sql.lexes_operator ['?'] (by decide))
  have middle : Sql.Opens " AS ".toList [.word "AS".toList] :=
    Sql.opens_space.append (Sql.lexes_word "AS".toList (by decide)).space
  have typed := ((parameter.opens middle rfl Sql.breaks_space).then type.lexes).opens Sql.opens_rparen rfl Sql.breaks_rparen
  unfold castParameter
  simpa [parameterLexemes, Lexeme.tokens] using typed.lexes

private theorem lexes_assignment {prop : EdmProperty} (type : WellFormedType prop.duckdbType) :
    Sql.Lexes (assignmentText prop) (tokensOf (assignmentLexemes prop)) := by
  have starts : castParameter prop = 'C' :: ("AST(? AS ".toList ++ prop.duckdbType ++ ")".toList) := rfl
  have whole := Sql.lexes_infix prop.name ['='] (by decide) (lexes_parameter type) starts (by decide)
  unfold assignmentText
  simpa [assignmentLexemes, quoteIdentifier, Lexeme.tokens] using whole

private theorem lexes_commas (props : List EdmProperty) (text : EdmProperty → Str) (lexemes : EdmProperty → List Lexeme)
    (each : ∀ prop ∈ props, Sql.Lexes (text prop) (tokensOf (lexemes prop))) :
    Sql.Lexes (",".toList.intercalate (props.map text)) (tokensOf ([.punctuation ','].intercalate (props.map lexemes))) := by
  rw [tokensOf_intercalate, List.map_map]
  exact Sql.lexes_intercalate Sql.opens_comma rfl Sql.breaks_comma _ _ _ each

private theorem lexes_columns (props : List EdmProperty) :
    Sql.Lexes (",".toList.intercalate (props.map fun prop => quoteIdentifier prop.name)) (tokensOf (columnLexemes props)) :=
  lexes_commas props _ _ fun prop _ => by simpa [quoteIdentifier, Lexeme.tokens] using Sql.lexes_ident prop.name

private theorem clause_returning (entity : EdmEntity) :
    Sql.Clause (returningClause entity) (.word "RETURNING".toList :: tokensOf (columnLexemes entity.properties)) :=
  (lexes_after "RETURNING".toList (by decide) (lexes_columns entity.properties)).clause

def writePath (entity : EdmEntity) : List Str := [entity.catalog, entity.schema, entity.table]

private theorem lexes_source (entity : EdmEntity) (word : Str) (isWord : Sql.isWord word) :
    Sql.Lexes (word ++ ' ' :: writeTable entity) (Lexeme.source word (writePath entity)).tokens := by
  have table : Sql.Lexes (writeTable entity) ([.punct '.'].intercalate ((writePath entity).map fun name => [.ident name])) := by
    unfold writeTable
    simpa [writePath] using lexes_path [entity.catalog, entity.schema] entity.table
  exact lexes_after word isWord table

private theorem clause_key {key : EdmProperty} (type : WellFormedType key.duckdbType) :
    Sql.Clause (" WHERE ".toList ++ (quoteIdentifier key.name ++ " = ".toList ++ castParameter key))
      (.word "WHERE".toList :: .ident key.name :: .op "=".toList :: tokensOf (parameterLexemes key)) := by
  have equals := Sql.lexes_operator "=".toList (by decide)
  have condition := (Sql.lexes_ident key.name).spaced (equals.spaced (lexes_parameter type))
  have whole := (lexes_after "WHERE".toList (by decide) condition).clause
  simpa [quoteIdentifier] using whole

def insertLexemes (entity : EdmEntity) (props : List EdmProperty) : List Lexeme :=
  .keyword "INSERT".toList :: .source "INTO".toList (writePath entity) ::
    ((if props = [] then [.keyword "DEFAULT".toList, .keyword "VALUES".toList]
      else .punctuation '(' :: (columnLexemes props ++ .punctuation ')' :: .keyword "VALUES".toList :: .punctuation '(' ::
        ([.punctuation ','].intercalate (props.map parameterLexemes) ++ [.punctuation ')']))) ++
      .keyword "RETURNING".toList :: columnLexemes entity.properties)

def keyedLexemes (entity : EdmEntity) (key : EdmProperty) (update : Bool) (props : List EdmProperty) : List Lexeme :=
  (if update then .source "UPDATE".toList (writePath entity) :: .keyword "SET".toList ::
      [.punctuation ','].intercalate (props.map assignmentLexemes)
    else [.keyword "DELETE".toList, .source "FROM".toList (writePath entity)]) ++
    .keyword "WHERE".toList :: .column key.name :: .operator "=".toList :: (parameterLexemes key ++
      .keyword "RETURNING".toList :: columnLexemes entity.properties)

theorem lexes_insert {entity : EdmEntity} (types : WellFormedTypes entity) {built : Assignments} {props : List EdmProperty}
    (has : Built entity built props) :
    Sql.Lexes (insertSql entity built ++ returningClause entity) (tokensOf (insertLexemes entity props)) := by
  have table := lexes_after "INSERT".toList (by decide) (lexes_source entity "INTO".toList (by decide))
  unfold insertSql insertLexemes
  by_cases none : props = []
  · have empty : built.values = [] := List.length_eq_zero_iff.mp (has.values.trans (by rw [none]; rfl))
    rw [if_pos none, if_pos empty]
    have defaults := (lexes_after "DEFAULT".toList (by decide)
      (Sql.lexes_word "VALUES".toList (by decide))).clause
    have whole := table.followed (defaults.append (clause_returning entity))
    simpa [Lexeme.tokens] using whole
  · have some : built.values ≠ [] := by
      intro empty
      have length := has.values
      rw [empty] at length
      exact none (List.length_eq_zero_iff.mp length.symm)
    rw [if_neg none, if_neg some, has.columns, has.placeholders]
    have columns := (lexes_columns props).parens
    have parameters := (lexes_commas props castParameter parameterLexemes fun prop listed =>
      lexes_parameter (types prop (has.members prop listed))).parens
    have values := (lexes_after "VALUES".toList (by decide) parameters.lexes).clause
    have whole := table.followed ((columns.lexes.clause.append values).append (clause_returning entity))
    simpa [Lexeme.tokens] using whole

theorem lexes_keyed {entity : EdmEntity} (types : WellFormedTypes entity) {key : EdmProperty} (listed : key ∈ entity.properties)
    (update : Bool) {built : Assignments} {props : List EdmProperty} (has : Built entity built props) :
    Sql.Lexes (keyedSql entity key update built ++ returningClause entity) (tokensOf (keyedLexemes entity key update props)) := by
  have ends := (clause_key (types key listed)).append (clause_returning entity)
  unfold keyedSql keyedLexemes
  cases update with
  | true =>
    have table := lexes_source entity "UPDATE".toList (by decide)
    have assignments := (lexes_after "SET".toList (by decide) (lexes_commas props assignmentText assignmentLexemes
      fun prop member => lexes_assignment (types prop (has.members prop member)))).clause
    have whole := table.followed (assignments.append ends)
    simpa [has.assignments, Lexeme.tokens] using whole
  | false =>
    have table := lexes_after "DELETE".toList (by decide) (lexes_source entity "FROM".toList (by decide))
    have whole := table.followed ends
    simpa [Lexeme.tokens] using whole

/-- Every lexeme may be in a write on `entity`. -/
def AllWrite (entity : EdmEntity) (lexemes : List Lexeme) : Prop := ∀ lexeme ∈ lexemes, lexeme.Writes entity

@[simp] theorem allWrite_nil (entity : EdmEntity) : AllWrite entity [] := nofun

@[simp] theorem allWrite_cons (entity : EdmEntity) (lexeme : Lexeme) (lexemes : List Lexeme) :
    AllWrite entity (lexeme :: lexemes) ↔ lexeme.Writes entity ∧ AllWrite entity lexemes := List.forall_mem_cons

@[simp] theorem allWrite_append (entity : EdmEntity) (first last : List Lexeme) :
    AllWrite entity (first ++ last) ↔ AllWrite entity first ∧ AllWrite entity last := List.forall_mem_append

private theorem allWrite_commas {entity : EdmEntity} {props : List EdmProperty} (lexemes : EdmProperty → List Lexeme)
    (each : ∀ prop ∈ props, AllWrite entity (lexemes prop)) :
    AllWrite entity ([.punctuation ','].intercalate (props.map lexemes)) := by
  intro lexeme member
  rcases mem_intercalate member with comma | ⟨item, listed, inside⟩
  · cases List.mem_singleton.mp comma
    simp [Lexeme.Writes]
  · obtain ⟨prop, found, rfl⟩ := List.mem_map.mp listed
    exact each prop found lexeme inside

private theorem writes_keyword (entity : EdmEntity) (name : Str) (member : name ∈ writeVocabulary) :
    (Lexeme.keyword name).Writes entity := member

private theorem writes_punctuation (entity : EdmEntity) {c : Char} (member : c ∈ ['(', ')', ',']) :
    (Lexeme.punctuation c).Writes entity := member

private theorem writes_columns {entity : EdmEntity} {props : List EdmProperty} (members : ∀ prop ∈ props, prop ∈ entity.properties) :
    AllWrite entity (columnLexemes props) :=
  allWrite_commas _ fun prop listed => by simpa [Lexeme.Writes] using ⟨prop, members prop listed, rfl⟩

private theorem writes_parameter {entity : EdmEntity} {prop : EdmProperty} (member : prop ∈ entity.properties) :
    AllWrite entity (parameterLexemes prop) := by
  simp only [parameterLexemes, allWrite_cons, allWrite_nil, and_true]
  exact ⟨writes_keyword entity _ (by decide), writes_punctuation entity (by decide), trivial, writes_keyword entity _ (by decide),
    ⟨prop, member, rfl⟩, writes_punctuation entity (by decide)⟩

private theorem writes_returning (entity : EdmEntity) :
    AllWrite entity (.keyword "RETURNING".toList :: columnLexemes entity.properties) := by
  simp only [allWrite_cons]
  exact ⟨writes_keyword entity _ (by decide), writes_columns fun _ listed => listed⟩

private theorem writes_insert {entity : EdmEntity} {props : List EdmProperty} (members : ∀ prop ∈ props, prop ∈ entity.properties) :
    AllWrite entity (insertLexemes entity props) := by
  have opening := writes_punctuation entity (c := '(') (by decide)
  have closing := writes_punctuation entity (c := ')') (by decide)
  have values := writes_keyword entity "VALUES".toList (by decide)
  have parameters := allWrite_commas parameterLexemes fun prop listed => writes_parameter (members prop listed)
  unfold insertLexemes
  rw [allWrite_cons, allWrite_cons, allWrite_append]
  refine ⟨writes_keyword entity _ (by decide), rfl, ?_, writes_returning entity⟩
  split
  · simp only [allWrite_cons, allWrite_nil, and_true]
    exact ⟨writes_keyword entity _ (by decide), values⟩
  · simp only [allWrite_cons, allWrite_append, allWrite_nil, and_true]
    exact ⟨opening, writes_columns members, closing, values, opening, parameters, closing⟩

private theorem writes_keyed {entity : EdmEntity} {key : EdmProperty} (listed : key ∈ entity.properties) (update : Bool)
    {props : List EdmProperty} (members : ∀ prop ∈ props, prop ∈ entity.properties) :
    AllWrite entity (keyedLexemes entity key update props) := by
  have assignments : AllWrite entity ([.punctuation ','].intercalate (props.map assignmentLexemes)) := by
    refine allWrite_commas assignmentLexemes fun prop member => ?_
    simp only [assignmentLexemes, allWrite_cons]
    exact ⟨⟨prop, members prop member, rfl⟩, rfl, writes_parameter (members prop member)⟩
  unfold keyedLexemes
  rw [allWrite_append, allWrite_cons, allWrite_cons, allWrite_cons, allWrite_append]
  refine ⟨?_, writes_keyword entity _ (by decide), ⟨key, listed, rfl⟩, rfl, writes_parameter listed, writes_returning entity⟩
  split
  · simp only [allWrite_cons]
    exact ⟨rfl, writes_keyword entity _ (by decide), assignments⟩
  · simp only [allWrite_cons, allWrite_nil, and_true]
    exact ⟨writes_keyword entity _ (by decide), rfl⟩

/-- The text of a planned write lexes to tokens of known origin. -/
theorem planWrite_tokens {read : BodyReader} {request : HttpRequest} {entity : EdmEntity} {keys : List Str} {plan : WritePlan}
    (types : WellFormedTypes entity) (planned : planWrite read request entity keys = .ok plan) :
    ∃ lexemes, Sql.lex plan.sql = some (tokensOf lexemes) ∧ AllWrite entity lexemes := by
  obtain ⟨key, built, found, -, assigned, rfl⟩ := planWrite_ok planned
  obtain ⟨props, has⟩ := writeAssignments_built assigned
  split
  next => exact ⟨_, (lexes_insert types has).lex, writes_insert has.members⟩
  next => exact ⟨_, (lexes_keyed types (writeKey_mem found) _ has).lex, writes_keyed (writeKey_mem found) _ has.members⟩

end DuckdbOdata.SqlTokens
