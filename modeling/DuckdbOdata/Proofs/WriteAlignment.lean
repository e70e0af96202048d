import DuckdbOdata.Foundation.SqlParameters
import DuckdbOdata.Proofs.HandlerCalls
import DuckdbOdata.Proofs.WriteAtomicity
import DuckdbOdata.Proofs.WriteStatements
import Mathlib.Data.List.Forall2
import Mathlib.Data.List.Nodup

/-! The parameters of a prepared write. Filled in from left to right they give
each named column its own member's value, and the key to the condition. -/

namespace DuckdbOdata.WriteAlignment
open Text FilterGrammar SqlTokens WritePlans WriteAtomicity

/-- A column, and the value it gets or is compared with, cast to a type. -/
structure Cell where
  column : Str
  type : Str
  value : Value

inductive Write
  | insert (cells : List Cell)
  | update (cells : List Cell) (key : Cell)
  | delete (key : Cell)

namespace Write

def dml : Write → Dml
  | .insert _ => .insert
  | .update _ _ => .update
  | .delete _ => .delete

def cells : Write → List Cell
  | .insert cells | .update cells _ => cells
  | .delete _ => []

def key? : Write → Option Cell
  | .insert _ => none
  | .update _ key | .delete key => some key

end Write

abbrev Filled := Sql.Filled Value

def plain (lexemes : List Lexeme) : List Filled := (tokensOf lexemes).map .token

/-- `CAST(value AS type)`. -/
def castCell (cell : Cell) : List Filled :=
  plain [.keyword "CAST".toList, .punctuation '('] ++ .value cell.value ::
    plain [.keyword "AS".toList, .typeName cell.type, .punctuation ')']

/-- `column = CAST(value AS type)`, as an assignment or as a condition. -/
def equalsCell (cell : Cell) : List Filled := plain [.column cell.column, .operator "=".toList] ++ castCell cell

def commas (items : List (List Filled)) : List Filled := (plain [.punctuation ',']).intercalate items

/-- The tokens of a write on the table of `entity`, without its `RETURNING`. -/
def Write.body (entity : EdmEntity) : Write → List Filled
  | .insert [] =>
    plain [.keyword "INSERT".toList, .source "INTO".toList (writePath entity), .keyword "DEFAULT".toList, .keyword "VALUES".toList]
  | .insert cells =>
    plain [.keyword "INSERT".toList, .source "INTO".toList (writePath entity), .punctuation '('] ++
      commas (cells.map fun cell => plain [.column cell.column]) ++
      plain [.punctuation ')', .keyword "VALUES".toList, .punctuation '('] ++ commas (cells.map castCell) ++ plain [.punctuation ')']
  | .update cells key =>
    plain [.source "UPDATE".toList (writePath entity), .keyword "SET".toList] ++ commas (cells.map equalsCell) ++
      plain [.keyword "WHERE".toList] ++ equalsCell key
  | .delete key =>
    plain [.keyword "DELETE".toList, .source "FROM".toList (writePath entity), .keyword "WHERE".toList] ++ equalsCell key

def Write.tokens (entity : EdmEntity) (write : Write) : List Filled :=
  write.body entity ++ plain (.keyword "RETURNING".toList :: columnLexemes entity.properties)

/-- The statement has one placeholder for each value, and with the values in
their places it is `write`. -/
def Means (entity : EdmEntity) (sql : Str) (values : List Value) (write : Write) : Prop :=
  ∃ tokens, Sql.lex sql = some tokens ∧ tokens.count Sql.placeholder = values.length ∧
    Sql.fill tokens values = some (write.tokens entity)

def scalar? : BodyValue → Option Value
  | .null => some .null
  | .string value => some (.text value)
  | .raw digits => some (.text digits)
  | .boolean value => some (.boolean value)
  | .other => none

/-- A member of the body gives its value to the property it names. -/
structure Gives (entity : EdmEntity) (update : Bool) (member : Str × BodyValue) (prop : EdmProperty) (cell : Cell) : Prop where
  visible : prop ∈ entity.properties
  named : sameName prop.name member.1
  writable : Writable update prop
  value : scalar? member.2 = some cell.value
  column : cell.column = prop.name
  type : cell.type = prop.duckdbType

/-- What the request asks for is what `write` does. A name that two properties
share only by case cannot tell them apart. -/
structure Asked (read : BodyReader) (request : HttpRequest) (entity : EdmEntity) (keys : List Str) (write : Write) : Prop where
  kind : write.dml = dmlFor request
  members : List.Forall₂ (fun member cell => ∃ prop, Gives entity (write.dml = .update) member prop cell)
    (takenMembers read request (write.dml = .insert) (write.dml = .update)) write.cells
  once : (write.cells.map fun cell => toLower cell.column).Nodup
  keyKept : write.dml = .update → (entity.properties.map fun prop => toLower prop.name).Nodup →
    ∀ cell ∈ write.cells, ∀ prop ∈ entity.properties, prop.isKey = true → ¬ sameName cell.column prop.name
  key : ∀ cell, write.key? = some cell → ∃ prop raw, entity.properties.filter (·.isKey) = [prop] ∧ keys = [raw] ∧
    cell = ⟨prop.name, prop.duckdbType, .text (unquoteKey raw)⟩

/-- No type name contains a parameter. -/
def FreeTypes (entity : EdmEntity) : Prop :=
  ∀ prop ∈ entity.properties, Sql.placeholder ∉ (Sql.lex prop.duckdbType).getD []

def cellOf (taken : EdmProperty × Value) : Cell := ⟨taken.1.name, taken.1.duckdbType, taken.2⟩

/-- A lexeme that takes no value. -/
def Valueless (lexeme : Lexeme) : Prop := Sql.placeholder ∉ lexeme.tokens

private theorem valueless_keyword (name : Str) : Valueless (.keyword name) := by
  simp [Valueless, Lexeme.tokens, Sql.placeholder]

private theorem valueless_punctuation (c : Char) : Valueless (.punctuation c) := by
  simp [Valueless, Lexeme.tokens, Sql.placeholder]

private theorem valueless_column (name : Str) : Valueless (.column name) := by
  simp [Valueless, Lexeme.tokens, Sql.placeholder]

private theorem valueless_equals : Valueless (.operator "=".toList) := by
  simp [Valueless, Lexeme.tokens, Sql.placeholder]

private theorem valueless_source (word : Str) (path : List Str) : Valueless (.source word path) := by
  intro member
  rcases source_tokens member with same | same | ⟨name, same⟩ <;> cases same

private theorem fill_valueless (lexemes : List Lexeme) (free : ∀ lexeme ∈ lexemes, Valueless lexeme) :
    Sql.fill (tokensOf lexemes) ([] : List Value) = some (plain lexemes) := by
  refine Sql.fill_plain fun member => ?_
  obtain ⟨lexeme, listed, inside⟩ := List.mem_flatMap.mp member
  exact free lexeme listed inside

private theorem fill_columns (props : List EdmProperty) :
    Sql.fill (tokensOf (columnLexemes props)) ([] : List Value) = some (plain (columnLexemes props)) := by
  refine fill_valueless _ fun lexeme listed => ?_
  rcases mem_intercalate listed with comma | ⟨item, member, inside⟩
  · cases List.mem_singleton.mp comma
    exact valueless_punctuation ','
  · obtain ⟨prop, -, rfl⟩ := List.mem_map.mp member
    cases List.mem_singleton.mp inside
    exact valueless_column prop.name

private theorem fill_parameter {prop : EdmProperty} (free : Valueless (.typeName prop.duckdbType)) (value : Value) :
    Sql.fill (tokensOf (parameterLexemes prop)) [value] = some (castCell (cellOf (prop, value))) := by
  have start := fill_valueless [.keyword "CAST".toList, .punctuation '(']
    (List.forall_mem_cons.mpr ⟨valueless_keyword _, List.forall_mem_singleton.mpr (valueless_punctuation '(')⟩)
  have finish := fill_valueless [.keyword "AS".toList, .typeName prop.duckdbType, .punctuation ')']
    (List.forall_mem_cons.mpr ⟨valueless_keyword _, List.forall_mem_cons.mpr
      ⟨free, List.forall_mem_singleton.mpr (valueless_punctuation ')')⟩⟩)
  have middle := Sql.fill_placeholder (tokensOf [.keyword "AS".toList, .typeName prop.duckdbType, .punctuation ')']) value []
  rw [finish] at middle
  exact Sql.fill_append start middle

private theorem fill_assignment {prop : EdmProperty} (free : Valueless (.typeName prop.duckdbType)) (value : Value) :
    Sql.fill (tokensOf (assignmentLexemes prop)) [value] = some (equalsCell (cellOf (prop, value))) :=
  Sql.fill_append (fill_valueless [.column prop.name, .operator "=".toList]
    (List.forall_mem_cons.mpr ⟨valueless_column _, List.forall_mem_singleton.mpr valueless_equals⟩)) (fill_parameter free value)

private theorem fill_commas {taken : List (EdmProperty × Value)} (lexemes : EdmProperty → List Lexeme) (cell : Cell → List Filled)
    (each : ∀ item ∈ taken, Sql.fill (tokensOf (lexemes item.1)) [item.2] = some (cell (cellOf item))) :
    Sql.fill (tokensOf ([.punctuation ','].intercalate ((taken.map (·.1)).map lexemes))) (taken.map (·.2)) =
      some (commas ((taken.map cellOf).map cell)) := by
  rw [tokensOf_intercalate, List.map_map, List.map_map, List.map_map]
  exact Sql.fill_intercalate (valueless_punctuation ',') taken _ _ _ each

private theorem plain_columns (taken : List (EdmProperty × Value)) :
    plain (columnLexemes (taken.map (·.1))) = commas ((taken.map cellOf).map fun cell => plain [.column cell.column]) := by
  unfold plain commas columnLexemes
  rw [tokensOf_intercalate, map_intercalate]
  simp [Function.comp_def, cellOf, plain]

private theorem fill_returning (entity : EdmEntity) :
    Sql.fill (tokensOf (.keyword "RETURNING".toList :: columnLexemes entity.properties)) ([] : List Value) =
      some (plain (.keyword "RETURNING".toList :: columnLexemes entity.properties)) :=
  Sql.fill_append (fill_valueless _ (List.forall_mem_singleton.mpr (valueless_keyword "RETURNING".toList)))
    (fill_columns entity.properties)

variable {entity : EdmEntity} {taken : List (EdmProperty × Value)}

private theorem fill_insert (free : ∀ item ∈ taken, Valueless (.typeName item.1.duckdbType)) :
    Sql.fill (tokensOf (insertLexemes entity (taken.map (·.1)))) (taken.map (·.2)) =
      some ((Write.insert (taken.map cellOf)).tokens entity) := by
  cases taken with
  | nil =>
    have start := fill_valueless [.keyword "INSERT".toList, .source "INTO".toList (writePath entity),
        .keyword "DEFAULT".toList, .keyword "VALUES".toList] (by simp [valueless_keyword, valueless_source])
    exact Sql.fill_append start (fill_returning entity)
  | cons item taken =>
    have start := fill_valueless [.keyword "INSERT".toList, .source "INTO".toList (writePath entity), .punctuation '(']
      (by simp [valueless_keyword, valueless_punctuation, valueless_source])
    have middle := fill_valueless [.punctuation ')', .keyword "VALUES".toList, .punctuation '(']
      (by simp [valueless_keyword, valueless_punctuation])
    have last := fill_valueless [.punctuation ')'] (by simp [valueless_punctuation])
    have casts := fill_commas parameterLexemes castCell fun other listed => fill_parameter (free other listed) other.2
    have columns := fill_columns ((item :: taken).map (·.1))
    rw [plain_columns] at columns
    have whole := Sql.fill_append (Sql.fill_append (Sql.fill_append (Sql.fill_append (Sql.fill_append start columns) middle) casts) last)
      (fill_returning entity)
    simpa [insertLexemes, Write.tokens, Write.body] using whole

private theorem fill_update (free : ∀ item ∈ taken, Valueless (.typeName item.1.duckdbType)) {key : EdmProperty}
    (freeKey : Valueless (.typeName key.duckdbType)) (value : Value) :
    Sql.fill (tokensOf (keyedLexemes entity key true (taken.map (·.1)))) (taken.map (·.2) ++ [value]) =
      some ((Write.update (taken.map cellOf) (cellOf (key, value))).tokens entity) := by
  have start := fill_valueless [.source "UPDATE".toList (writePath entity), .keyword "SET".toList]
    (by simp [valueless_keyword, valueless_source])
  have assignments := fill_commas assignmentLexemes equalsCell fun item listed => fill_assignment (free item listed) item.2
  have middle := fill_valueless [.keyword "WHERE".toList] (by simp [valueless_keyword])
  have whole := Sql.fill_append (Sql.fill_append (Sql.fill_append (Sql.fill_append start assignments) middle)
    (fill_assignment freeKey value)) (fill_returning entity)
  simpa [keyedLexemes, assignmentLexemes, Write.tokens, Write.body] using whole

private theorem fill_delete {key : EdmProperty} (freeKey : Valueless (.typeName key.duckdbType)) (value : Value) :
    Sql.fill (tokensOf (keyedLexemes entity key false [])) [value] = some ((Write.delete (cellOf (key, value))).tokens entity) := by
  have start := fill_valueless [.keyword "DELETE".toList, .source "FROM".toList (writePath entity), .keyword "WHERE".toList]
    (by simp [valueless_keyword, valueless_source])
  have whole := Sql.fill_append (Sql.fill_append start (fill_assignment freeKey value)) (fill_returning entity)
  simpa [keyedLexemes, assignmentLexemes, Write.tokens, Write.body] using whole

/-- The lists built from the members of a body, with the properties they name and
the values they give. -/
structure Accepted (entity : EdmEntity) (update : Bool) (members : List (Str × BodyValue)) (built : Assignments)
    (taken : List (EdmProperty × Value)) : Prop where
  texts : Built entity built (taken.map (·.1))
  values : built.values = taken.map (·.2)
  gives : List.Forall₂ (fun member item => Gives entity update member item.1 (cellOf item)) members taken
  seen : ∀ member ∈ members, toLower member.1 ∈ built.seen
  once : (members.map fun member => toLower member.1).Nodup

private theorem bodyParameter_scalar {prop : EdmProperty} {field : Str} {value : BodyValue} {parameter : Value}
    (passed : bodyParameter prop field value = .ok parameter) : scalar? value = some parameter := by
  cases value with
  | null =>
    rw [bodyParameter] at passed
    split at passed
    · cases passed
    · cases passed
      rfl
  | other => cases passed
  | string value | raw digits | boolean value =>
    cases passed
    rfl

private theorem accepted_none (update : Bool) : Accepted entity update [] {} [] where
  texts := built_none entity
  values := rfl
  gives := .nil
  seen := nofun
  once := .nil

private theorem Accepted.add {update : Bool} {members : List (Str × BodyValue)} {member : Str × BodyValue}
    {before after : Assignments} (has : Accepted entity update members before taken)
    (added : addMember update entity before member = .ok after) :
    ∃ item, Accepted entity update (members ++ [member]) after (taken ++ [item]) := by
  obtain ⟨prop, parameter, fresh, found, writable, passed, rfl⟩ := addMember_ok added
  obtain ⟨visible, named⟩ := findProperty_mem found
  refine ⟨(prop, parameter), ?_, ?_, ?_, ?_, ?_⟩
  · simpa using has.texts.add visible member.1 parameter
  · simp [extend, has.values]
  · exact List.rel_append has.gives (.cons ⟨visible, named, writable, bodyParameter_scalar passed, rfl, rfl⟩ .nil)
  · intro other listed
    rcases List.mem_append.mp listed with earlier | last
    · exact List.mem_cons_of_mem _ (has.seen other earlier)
    · cases List.mem_singleton.mp last
      exact List.mem_cons_self
  · rw [List.map_append, List.nodup_append]
    refine ⟨has.once, List.nodup_singleton _, ?_⟩
    rintro field earlier other last rfl
    obtain ⟨first, listed, rfl⟩ := List.mem_map.mp earlier
    have same : toLower first.1 = toLower member.1 := List.mem_singleton.mp last
    exact fresh (same ▸ has.seen first listed)

private theorem writeAssignments_accepted {read : BodyReader} {request : HttpRequest} {insert update : Bool} {built : Assignments}
    (done : writeAssignments read request entity insert update = .ok built) :
    ∃ taken, Accepted entity update (takenMembers read request insert update) built taken := by
  refine foldlM_keeps (fun members built => ∃ taken, Accepted entity update members built taken) ?_ _ []
    ⟨[], accepted_none update⟩ (writeAssignments_ok done)
  rintro members member before after ⟨taken, has⟩ stepped
  obtain ⟨item, more⟩ := has.add stepped
  exact ⟨_, more⟩

private theorem Accepted.columns {update : Bool} {members : List (Str × BodyValue)} {built : Assignments}
    (has : Accepted entity update members built taken) :
    ((taken.map cellOf).map fun cell => toLower cell.column).Nodup := by
  have same : ((taken.map cellOf).map fun cell => toLower cell.column) = members.map fun member => toLower member.1 := by
    rw [List.map_map]
    refine List.Forall₂.rec rfl (fun gives _ ih => ?_) has.gives
    exact congrArg₂ List.cons gives.named ih
  exact same ▸ has.once

private theorem gives_members {update : Bool} {members : List (Str × BodyValue)}
    (gives : List.Forall₂ (fun member item => Gives entity update member item.1 (cellOf item)) members taken) :
    List.Forall₂ (fun member cell => ∃ prop, Gives entity update member prop cell) members (taken.map cellOf) := by
  rw [List.forall₂_map_right_iff]
  exact gives.imp fun member item given => ⟨item.1, given⟩

theorem gives_listed {update : Bool} {members : List (Str × BodyValue)} {cells : List Cell}
    (gives : List.Forall₂ (fun member cell => ∃ prop, Gives entity update member prop cell) members cells) {cell : Cell}
    (listed : cell ∈ cells) : ∃ member prop, Gives entity update member prop cell := by
  induction gives with
  | nil => cases listed
  | cons first _ ih =>
    rcases List.mem_cons.mp listed with rfl | later
    · exact ⟨_, first⟩
    · exact ih later

private theorem gives_kept {members : List (Str × BodyValue)} {cells : List Cell}
    (gives : List.Forall₂ (fun member cell => ∃ prop, Gives entity true member prop cell) members cells)
    (distinct : (entity.properties.map fun prop => toLower prop.name).Nodup) {cell : Cell} (listed : cell ∈ cells)
    {prop : EdmProperty} (visible : prop ∈ entity.properties) (isKey : prop.isKey = true) : ¬ sameName cell.column prop.name := by
  intro same
  obtain ⟨member, other, given⟩ := gives_listed gives listed
  have single : other = prop := by
    refine List.inj_on_of_nodup_map distinct given.visible visible ?_
    rw [← given.column]
    exact same
  have changes := given.writable.changes rfl
  rw [single, isKey] at changes
  cases changes

/-- A planned write does what its request asks for. -/
theorem planWrite_means {read : BodyReader} {request : HttpRequest} {keys : List Str} {plan : WritePlan}
    (types : WellFormedTypes entity) (free : FreeTypes entity) (planned : planWrite read request entity keys = .ok plan) :
    ∃ write, Asked read request entity keys write ∧ Means entity plan.sql plan.parameters write := by
  obtain ⟨key, built, found, single, assigned, rfl⟩ := planWrite_ok planned
  obtain ⟨taken, has⟩ := writeAssignments_accepted assigned
  have freeTaken : ∀ item ∈ taken, Valueless (.typeName item.1.duckdbType) := fun item listed =>
    free item.1 (has.texts.members item.1 (List.mem_map_of_mem listed))
  have listedKey := writeKey_mem found
  have freeKey : Valueless (.typeName key.duckdbType) := free key listedKey
  have meant {sql : Str} {values : List Value} {lexemes : List Lexeme} {write : Write} (lexed : Sql.Lexes sql (tokensOf lexemes))
      (filled : Sql.fill (tokensOf lexemes) values = some (write.tokens entity)) : Means entity sql values write :=
    ⟨tokensOf lexemes, lexed.lex, Sql.fill_count filled, filled⟩
  have keyed (keyed : request.method ≠ "POST".toList) : ∃ prop raw, entity.properties.filter (·.isKey) = [prop] ∧ keys = [raw] ∧
      cellOf (key, .text (unquoteKey (keys.headD []))) = ⟨prop.name, prop.duckdbType, .text (unquoteKey raw)⟩ := by
    obtain ⟨raw, rfl⟩ := List.length_eq_one_iff.mp (single keyed)
    exact ⟨key, raw, writeKey_only found, rfl, rfl⟩
  by_cases insert : request.method = "POST".toList
  · have other : request.method ≠ "PATCH".toList := by rw [insert]; decide
    rw [decide_eq_true insert, decide_eq_false other] at has
    rw [if_pos insert]
    refine ⟨.insert (taken.map cellOf), ⟨?_, gives_members has.gives, has.columns, nofun, nofun⟩, ?_⟩
    · rw [dmlFor, if_pos insert]
      rfl
    · rw [has.values]
      exact meant (lexes_insert types has.texts) (fill_insert freeTaken)
  rw [if_neg insert]
  by_cases update : request.method = "PATCH".toList
  · rw [decide_eq_false insert, decide_eq_true update] at has
    refine ⟨.update (taken.map cellOf) (cellOf (key, .text (unquoteKey (keys.headD [])))),
      ⟨?_, gives_members has.gives, has.columns, fun _ distinct cell listed => ?_, ?_⟩, ?_⟩
    · rw [dmlFor, if_neg insert, if_pos update]
      rfl
    · exact fun prop => gives_kept (gives_members has.gives) distinct listed
    · rintro cell ⟨⟩
      exact keyed insert
    · rw [has.values, decide_eq_true update]
      exact meant (lexes_keyed types listedKey true has.texts) (fill_update freeTaken freeKey _)
  · rw [decide_eq_false insert, decide_eq_false update] at has
    have nothing : taken = [] := List.forall₂_nil_left_iff.mp has.gives
    subst nothing
    refine ⟨.delete (cellOf (key, .text (unquoteKey (keys.headD [])))), ⟨?_, .nil, .nil, nofun, ?_⟩, ?_⟩
    · rw [dmlFor, if_neg insert, if_neg update]
      rfl
    · rintro cell ⟨⟩
      exact keyed insert
    · rw [has.values, decide_eq_false update]
      exact meant (lexes_keyed types listedKey false has.texts) (fill_delete freeKey _)

end DuckdbOdata.WriteAlignment
