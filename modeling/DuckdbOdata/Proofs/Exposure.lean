import DuckdbOdata.Foundation.Run
import DuckdbOdata.Proofs.Entities
import DuckdbOdata.Proofs.HandlerCalls
import DuckdbOdata.Proofs.Registrations
import DuckdbOdata.Proofs.WriteStatements

/-! What the registry opens to requests. The tables and allow-lists of its
bindings are granted by the exposing commands, unless `odata_entity` names a
table that is not bound. -/

namespace DuckdbOdata.Exposure
open Text FilterGrammar SqlTokens HandlerCalls Entities Registrations

/-- A table and the columns of it that are open, all of them if the list is empty. -/
structure Grant where
  scope : Scope
  columns : List Str

def grantOf (binding : EntityBinding) : Grant where
  scope := scopeOf binding
  columns := binding.configuredColumns

/-- The grants of a call: `odata_entity` gives none. -/
def grantsOf (call : Session × Command) : List Grant :=
  match call.2 with
  | .entity _ _ => []
  | _ =>
    match registrations call with
    | .ok registered => registered.map grantOf
    | .error _ => []

def grants (history : List (Session × Command)) : List Grant := history.flatMap grantsOf

/-- The table whose columns these rows are. -/
def Grant.entity (grant : Grant) (row : ColumnRow) : EdmEntity where
  catalog := row.databaseName
  schema := row.schemaName
  table := grant.scope.table

/-- What a statement on the granted table may contain: its names, and the open
columns. -/
def Within (grant : Grant) (rows : List ColumnRow) : Lexeme → Prop
  | .source _ path => ∃ row ∈ rows, path = tablePath (grant.entity row) ∨ path = writePath (grant.entity row)
  | .column name => grant.columns = [] ∨ ∃ column ∈ grant.columns, sameName name column
  | .wildcard => grant.columns = [] ∨ ∀ row ∈ rows, ∀ column ∈ grant.columns, ¬ sameName row.columnName column
  | _ => True

/-- A statement that reads or writes nothing but the granted table. -/
def Touches (catalog : Catalog) (grant : Grant) (sql : Str) : Prop :=
  ∃ rows lexemes, catalog.columns grant.scope = .ok rows ∧ Sql.lex sql = some (tokensOf lexemes) ∧
    ∀ lexeme ∈ lexemes, Within grant rows lexeme

/-- The catalog prints type names as `WellFormedType` describes them. -/
def PrintsTypes (catalog : Catalog) : Prop :=
  ∀ scope rows, catalog.columns scope = .ok rows → ∀ row ∈ rows, WellFormedType row.dataType

/-- Every table that a request can reach was granted. -/
structure OnlyGranted (granted : List Grant) (bindings : List EntityBinding) : Prop where
  bound : ∀ binding ∈ bindings, grantOf binding ∈ granted
  requests : ∀ read state catalog request, state.bindings = bindings → PrintsTypes catalog →
    Keeps (fun sql => ∃ grant ∈ granted, Touches catalog grant sql) (handleODataRequest read state catalog request)

variable {catalog : Catalog} {binding : EntityBinding} {built : EdmEntity}

private theorem tablePath_built {entity target : EdmEntity} (catalog : entity.catalog = target.catalog)
    (schema : entity.schema = target.schema) (table : entity.table = target.table) :
    tablePath entity = tablePath target ∧ writePath entity = writePath target := by
  unfold tablePath writePath
  rw [catalog, schema, table]
  exact ⟨rfl, rfl⟩

private theorem applyColumnPolicy_paths (built : EdmEntity) (binding : EntityBinding) :
    tablePath (applyColumnPolicy built binding) = tablePath built ∧
      writePath (applyColumnPolicy built binding) = writePath built := by
  unfold applyColumnPolicy
  split <;> exact ⟨rfl, rfl⟩

private theorem touches_statements (types : PrintsTypes catalog) (resolved : buildEntity catalog binding = .ok built) :
    Statements (Touches catalog (grantOf binding)) (applyColumnPolicy built binding) := by
  obtain ⟨first, others, keys, live, -, same⟩ := buildEntity_live resolved
  have table : ∃ row ∈ first :: others,
      tablePath (applyColumnPolicy built binding) = tablePath ((grantOf binding).entity row) ∧
      writePath (applyColumnPolicy built binding) = writePath ((grantOf binding).entity row) := by
    obtain ⟨reads, writes⟩ := applyColumnPolicy_paths built binding
    rw [reads, writes]
    exact ⟨first, List.mem_cons_self, tablePath_built (by rw [same]; rfl) (by rw [same]; rfl) (by rw [same]; rfl)⟩
  obtain ⟨row, member, reads, writes⟩ := table
  have wellFormed : WellFormedTypes (applyColumnPolicy built binding) := by
    intro prop visible
    exact buildEntity_types WellFormedType (types _) resolved prop (applyColumnPolicy_property.mp visible).1
  have column : ∀ name, (∃ prop ∈ (applyColumnPolicy built binding).properties, sameName prop.name name) →
      (grantOf binding).columns = [] ∨ ∃ column ∈ (grantOf binding).columns, sameName name column := by
    rintro name ⟨prop, visible, same⟩
    refine (applyColumnPolicy_property.mp visible).2.imp_right ?_
    rintro ⟨column, listed, other⟩
    exact ⟨column, listed, same.symm.trans other⟩
  have hidden : ∀ other ∈ first :: others, (∃ column ∈ (grantOf binding).columns, sameName other.columnName column) →
      (applyColumnPolicy built binding).properties ≠ [] := by
    rintro other current ⟨column, listed, named⟩
    have visible : markKey keys (propertyOf other) ∈ (applyColumnPolicy built binding).properties := by
      refine applyColumnPolicy_property.mpr ⟨?_, .inr ⟨column, listed, ?_⟩⟩
      · rw [same]
        exact List.mem_map_of_mem (List.mem_map_of_mem current)
      · rw [(markKey_same keys (propertyOf other)).1]
        exact named
    exact List.ne_nil_of_mem visible
  constructor
  · intro statement compiled done
    refine ⟨_, statement.lexemes _, live, (statement.lexes wellFormed done).lex, fun lexeme inside => ?_⟩
    have allowed := statement.allowed done lexeme inside
    cases lexeme with
    | source word path => exact ⟨row, member, .inl (allowed.2.trans reads)⟩
    | column name => exact column name allowed
    | wildcard => exact .inr fun other current column listed named => hidden other current ⟨column, listed, named⟩ allowed
    | _ => trivial
  · intro read request keys plan planned
    obtain ⟨lexemes, lexed, written⟩ := planWrite_tokens wellFormed planned
    refine ⟨_, lexemes, live, lexed, fun lexeme inside => ?_⟩
    have allowed := written lexeme inside
    cases lexeme with
    | source word path => exact ⟨row, member, .inr (Eq.trans allowed writes)⟩
    | column name =>
      obtain ⟨prop, visible, rfl⟩ := allowed
      exact column prop.name ⟨prop, visible, rfl⟩
    | wildcard => exact absurd allowed id
    | _ => trivial

/-- Bindings that were granted are all that a request reaches. -/
theorem onlyGranted_of_bound {granted : List Grant} {bindings : List EntityBinding}
    (bound : ∀ binding ∈ bindings, grantOf binding ∈ granted) : OnlyGranted granted bindings := by
  refine ⟨bound, ?_⟩
  rintro read state catalog request rfl types
  refine keeps_request fun binding built named found resolved => ?_
  have given := bound binding (List.mem_of_find?_eq_some found)
  have touches := touches_statements types resolved
  exact ⟨fun statement compiled done => ⟨_, given, touches.reads statement done⟩, fun planned => ⟨_, given, touches.writes planned⟩⟩

def Configures (call : Session × Command) : Prop := ∃ arg key, call.2 = .entity arg key

/-- A call of `odata_entity` names an entity that is bound, or a table that some
binding opens already without an allow-list. -/
def NamesBound (bindings : List EntityBinding) (call : Session × Command) : Prop :=
  Configures call → ∀ registered, registrations call = .ok registered → ∀ new ∈ registered,
    (∃ old ∈ bindings, sameName old.name new.name) ∨ ∃ old ∈ bindings, grantOf old = grantOf new

private theorem storeSchema_mem {bindings : List EntityBinding} {binding item : EntityBinding}
    (member : item ∈ storeSchema bindings binding) : item ∈ bindings ∨ item = binding := by
  rcases Upsert.mem member with kept | ⟨_, -, -, same⟩ | ⟨same, -⟩
  · exact .inl kept
  · exact .inr same
  · exact .inr same

private theorem schema_mem {registered bindings : List EntityBinding} {item : EntityBinding}
    (member : item ∈ registered.foldl storeSchema bindings) : item ∈ bindings ∨ item ∈ registered := by
  induction registered generalizing bindings with
  | nil => exact .inl member
  | cons first others ih =>
    rcases ih member with stored | later
    · rcases storeSchema_mem stored with kept | rfl
      · exact .inl kept
      · exact .inr List.mem_cons_self
    · exact .inr (List.mem_cons_of_mem _ later)

private theorem grants_append (history : List (Session × Command)) (call : Session × Command) :
    grants (history ++ [call]) = grants history ++ grantsOf call := by
  simp [grants]

private theorem exposes_bound {before after : List EntityBinding} {call : Session × Command} (called : Calls before call after)
    (exposes : ¬ Configures call) : ∀ binding ∈ after, binding ∈ before ∨ grantOf binding ∈ grantsOf call := by
  obtain ⟨registered, given, rfl⟩ := calls_stores called
  obtain ⟨session, command⟩ := call
  intro binding member
  have stored : binding ∈ before ∨ binding ∈ registered := by
    cases command with
    | expose arg columns =>
      obtain ⟨exposed, -, same⟩ := bind_ok given
      cases same
      exact (storeExposed_mem member).imp_right fun same => List.mem_singleton.mpr same
    | exposeSchema arg => exact schema_mem member
    | entity arg key => exact absurd ⟨arg, key, rfl⟩ exposes
  refine stored.imp_right fun inside => ?_
  have granted : grantsOf (session, command) = registered.map grantOf := by
    cases command with
    | entity arg key => exact absurd ⟨arg, key, rfl⟩ exposes
    | _ => simp only [grantsOf, given]
  rw [granted]
  exact List.mem_map_of_mem inside

private theorem configures_bound {before after : List EntityBinding} {call : Session × Command} (called : Calls before call after)
    (configures : Configures call) :
    (∀ binding ∈ after, ∃ old ∈ before, grantOf old = grantOf binding) ↔ NamesBound before call := by
  obtain ⟨registered, given, rfl⟩ := calls_stores called
  obtain ⟨session, command⟩ := call
  obtain ⟨arg, key, rfl⟩ := configures
  obtain ⟨new, -, same⟩ := bind_ok given
  cases same
  constructor
  · rintro old - registered given' other member
    cases given.symm.trans given'
    rw [List.mem_singleton.mp member]
    rcases Upsert.written (fun old => sameName old.name new.name) (fun old => { old with configuredKeys := new.configuredKeys })
      new before with ⟨hit, inside, same, -⟩ | ⟨-, written⟩
    · exact .inl ⟨hit, inside, same⟩
    · exact .inr (old new written)
  · intro named binding member
    rcases Upsert.mem member with kept | ⟨old, inside, -, rfl⟩ | ⟨rfl, missed⟩
    · exact ⟨binding, kept, rfl⟩
    · exact ⟨old, inside, rfl⟩
    · rcases named ⟨arg, key, rfl⟩ _ given _ List.mem_cons_self with ⟨old, inside, same⟩ | open'
      · exact absurd same (missed old inside)
      · exact open'

/-- Along a run, requests reach granted tables only and no call of `odata_entity`
opens anything, exactly if every such call names a bound entity, or a table that
is open without an allow-list. -/
theorem onlyGranted_iff {history : List (Session × Command)} {bindings : List EntityBinding}
    (run : Run Calls [] history bindings) :
    ((∀ past state, past <+: history → Run Calls [] past state → OnlyGranted (grants past) state) ∧
      ∀ past call before after, past ++ [call] <+: history → Run Calls [] past before → Calls before call after →
        Configures call → ∀ binding ∈ after, ∃ old ∈ before, grantOf old = grantOf binding) ↔
      ∀ past call before, past ++ [call] <+: history → Run Calls [] past before → NamesBound before call := by
  constructor
  · rintro ⟨-, opens⟩ past call before front reached configures
    obtain ⟨rest, rfl⟩ := front
    obtain ⟨after, initial, -⟩ := run.split
    obtain ⟨middle, earlier, last⟩ := initial.split
    cases earlier.functional calls_functional reached
    cases last with
    | next called rest =>
      cases rest
      have same := opens past call before _ (List.prefix_append _ _) reached called configures
      exact (configures_bound called configures).mp same configures
  · intro named
    have opens : ∀ past call before after, past ++ [call] <+: history → Run Calls [] past before → Calls before call after →
        Configures call → ∀ binding ∈ after, ∃ old ∈ before, grantOf old = grantOf binding :=
      fun past call before after front reached called configures =>
        (configures_bound called configures).mpr (named past call before front reached)
    refine ⟨?_, opens⟩
    rintro past state ⟨more, rfl⟩ reached
    refine onlyGranted_of_bound (reached.history (fun past state => ∀ binding ∈ state, grantOf binding ∈ grants past)
      (fun _ member => absurd member List.not_mem_nil) ?_)
    intro earlier call rest before after whole sofar called bound binding member
    rw [grants_append, List.mem_append]
    by_cases configures : Configures call
    · have front : earlier ++ [call] <+: past ++ more := ⟨rest ++ more, by rw [whole]; simp⟩
      obtain ⟨old, inside, same⟩ := opens earlier call before after front sofar called configures binding member
      exact .inl (same ▸ bound old inside)
    · exact (exposes_bound called configures binding member).imp_left (bound binding)

private def exposePeople : Session × Command := (people, .expose "people".toList [])

private def keyPeople : Session × Command := (people, .entity "people".toList "id".toList)

theorem onlyGranted_iff_people : OnlyGranted (grants [exposePeople, keyPeople]) [boundPeople ["id"] []] := by
  have run : Run Calls [] [exposePeople, keyPeople] [boundPeople ["id"] []] := .next ⟨_, rfl⟩ (.single ⟨_, rfl⟩)
  have first : NamesBound [] exposePeople := by
    rintro ⟨arg, key, same⟩
    cases same
  have second : NamesBound [boundPeople [] []] keyPeople := by
    intro configures registered given new member
    cases given
    rw [List.mem_singleton.mp member]
    exact .inl ⟨_, List.mem_cons_self, rfl⟩
  refine ((onlyGranted_iff run).mpr ?_).1 _ _ List.prefix_rfl run
  rintro past call before ⟨rest, whole⟩ reached
  have named : Run (fun before call after => Calls before call after ∧ NamesBound before call) [] [exposePeople, keyPeople] _ :=
    .next ⟨⟨_, rfl⟩, first⟩ (.single ⟨⟨_, rfl⟩, second⟩)
  exact named.checked calls_functional (whole.symm.trans (List.append_assoc _ _ _)) reached

/-- `odata_entity` alone opens the table. -/
theorem onlyGranted_entity : ∃ bindings, Run Calls [] [keyPeople] bindings ∧ grants [keyPeople] = [] ∧
    (∃ rest, handleODataRequest (fun _ => none) { bindings } people.toCatalog
      { method := "GET".toList, path := "/odata/people".toList } = .ask (.query "SELECT \"id\" FROM \"people\"".toList) rest) ∧
    ¬ OnlyGranted (grants [keyPeople]) bindings := by
  refine ⟨[boundPeople ["id"] []], .single ⟨_, rfl⟩, rfl, ⟨_, rfl⟩, fun granted => ?_⟩
  exact absurd (granted.bound _ List.mem_cons_self) List.not_mem_nil

end DuckdbOdata.Exposure
