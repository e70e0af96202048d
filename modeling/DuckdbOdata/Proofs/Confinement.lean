import DuckdbOdata.Proofs.Entities
import DuckdbOdata.Proofs.HandlerCalls
import DuckdbOdata.Proofs.Routes
import DuckdbOdata.Proofs.WriteStatements

/-! Column allow-lists. A request to an entity with an allow-list runs statements
that name columns on the list only, unless no current column is on it: then the
empty select list becomes a wildcard. -/

namespace DuckdbOdata.Confinement
open Text FilterGrammar SqlTokens HandlerCalls Routes Entities

/-- The column is on the allow-list. -/
def Allows (binding : EntityBinding) (name : Str) : Prop := ∃ column ∈ binding.configuredColumns, sameName name column

/-- What a statement on the table of `built` may contain if it keeps to the
allow-list. -/
def Permitted (built : EdmEntity) (binding : EntityBinding) : Lexeme → Prop
  | .keyword name => name ∈ vocabulary ∨ name ∈ writeVocabulary
  | .operator symbol => symbol ∈ ["=", "<>", "<", "<=", ">", ">="].map String.toList
  | .wildcard => False
  | .countAll | .parameter | .integer _ | .float _ | .clientString _ => True
  | .punctuation c => c ∈ ['(', ')', ',']
  | .column name => Allows binding name
  | .source _ path => path = tablePath built ∨ path = writePath built
  | .typeName name => name = "BIGINT".toList ∨ name = "BOOLEAN".toList ∨ ∃ prop ∈ built.properties, prop.duckdbType = name

/-- A statement that keeps to the allow-list. -/
def Confined (catalog : Catalog) (binding : EntityBinding) (sql : Str) : Prop :=
  ∃ built lexemes, buildEntity catalog binding = .ok built ∧ Sql.lex sql = some (tokensOf lexemes) ∧
    ∀ lexeme ∈ lexemes, Permitted built binding lexeme

/-- In every configuration, every request that names the binding keeps to its
allow-list, and so do the metadata. -/
structure Confines (catalog : Catalog) (binding : EntityBinding) : Prop where
  statements : ∀ read state request, findBinding state.bindings (parseRoute state request.path).entity = some binding →
    Keeps (Confined catalog binding) (handleODataRequest read state catalog request)
  metadata : ∀ entity, metadataEntity catalog binding = some entity → ∀ prop ∈ entity.properties, Allows binding prop.name

/-- The catalog's type names are well formed and contain no `*`. -/
def PlainTypes (catalog : Catalog) (binding : EntityBinding) : Prop :=
  ∀ columns, catalog.columns (scopeOf binding) = .ok columns → ∀ row ∈ columns,
    WellFormedType row.dataType ∧ Sql.Token.op ['*'] ∉ (Sql.lex row.dataType).getD []

/-- The entity that a request sees. -/
structure Visible (built : EdmEntity) (binding : EntityBinding) (entity : EdmEntity) : Prop where
  properties : ∀ prop ∈ entity.properties, prop ∈ built.properties ∧ Allows binding prop.name
  table : tablePath entity = tablePath built
  writes : writePath entity = writePath built

theorem applyColumnPolicy_visible {built : EdmEntity} {binding : EntityBinding} (listed : binding.configuredColumns ≠ []) :
    Visible built binding (applyColumnPolicy built binding) := by
  unfold applyColumnPolicy
  rw [if_neg listed]
  refine ⟨fun prop member => ?_, rfl, rfl⟩
  obtain ⟨inside, allowed⟩ := List.mem_filter.mp member
  exact ⟨inside, by simpa [Allows] using allowed⟩

theorem applyColumnPolicy_some {built : EdmEntity} {binding : EntityBinding} (listed : binding.configuredColumns ≠ []) :
    (applyColumnPolicy built binding).properties ≠ [] ↔ ∃ prop ∈ built.properties, Allows binding prop.name := by
  unfold applyColumnPolicy
  rw [if_neg listed]
  simp [Allows, List.filter_eq_nil_iff]

theorem Visible.permits {built entity : EdmEntity} {binding : EntityBinding} (visible : Visible built binding entity)
    (some : entity.properties ≠ []) {lexeme : Lexeme} (allowed : lexeme.Allowed entity) : Permitted built binding lexeme := by
  cases lexeme with
  | keyword name => exact .inl allowed
  | operator symbol => exact allowed
  | wildcard => exact absurd allowed some
  | parameter => exact absurd allowed id
  | punctuation c => exact allowed
  | column name =>
    obtain ⟨prop, member, same⟩ := allowed
    obtain ⟨-, column, listed, matching⟩ := visible.properties prop member
    exact ⟨column, listed, same.symm.trans matching⟩
  | source word path => exact .inl (allowed.2.trans visible.table)
  | typeName name =>
    rcases allowed with same | same | ⟨prop, member, same⟩
    · exact .inl same
    · exact .inr (.inl same)
    · exact .inr (.inr ⟨prop, (visible.properties prop member).1, same⟩)
  | _ => trivial

theorem Visible.writesPermitted {built entity : EdmEntity} {binding : EntityBinding} (visible : Visible built binding entity)
    {lexeme : Lexeme} (writes : lexeme.Writes entity) : Permitted built binding lexeme := by
  cases lexeme with
  | keyword name => exact .inr writes
  | operator symbol =>
    cases writes
    exact List.mem_cons_self
  | parameter => trivial
  | punctuation c => exact writes
  | column name =>
    obtain ⟨prop, member, rfl⟩ := writes
    exact (visible.properties prop member).2
  | source word path => exact .inr (Eq.trans writes visible.writes)
  | typeName name =>
    obtain ⟨prop, member, same⟩ := writes
    exact .inr (.inr ⟨prop, (visible.properties prop member).1, same⟩)
  | _ => exact absurd writes id

private theorem visible_types {catalog : Catalog} {binding : EntityBinding} {built entity : EdmEntity}
    (types : PlainTypes catalog binding) (resolved : buildEntity catalog binding = .ok built)
    (visible : Visible built binding entity) : WellFormedTypes entity := by
  intro prop member
  apply buildEntity_types WellFormedType ?_ resolved prop (visible.properties prop member).1
  exact fun columns live row listed => (types columns live row listed).1

private theorem visible_statements {catalog : Catalog} {binding : EntityBinding} {built entity : EdmEntity}
    (types : PlainTypes catalog binding) (resolved : buildEntity catalog binding = .ok built)
    (visible : Visible built binding entity) (some : entity.properties ≠ []) :
    Statements (Confined catalog binding) entity where
  reads statement compiled done :=
    ⟨built, statement.lexemes entity, resolved, (statement.lexes (visible_types types resolved visible) done).lex,
      fun lexeme member => visible.permits some (statement.allowed done lexeme member)⟩
  writes planned := by
    obtain ⟨lexemes, lexed, writes⟩ := planWrite_tokens (visible_types types resolved visible) planned
    exact ⟨built, lexemes, resolved, lexed, fun lexeme member => visible.writesPermitted (writes lexeme member)⟩

private theorem permitted_star {built : EdmEntity} {binding : EntityBinding}
    (types : ∀ prop ∈ built.properties, Sql.Token.op ['*'] ∉ (Sql.lex prop.duckdbType).getD []) (lexemes : List Lexeme)
    (permitted : ∀ lexeme ∈ lexemes, Permitted built binding lexeme) :
    (∀ rest, tokensOf lexemes ≠ .op ['*'] :: rest) ∧ ∀ word rest, tokensOf lexemes ≠ .word word :: .op ['*'] :: rest := by
  induction lexemes with
  | nil => exact ⟨nofun, nofun⟩
  | cons lexeme others ih =>
    obtain ⟨first, second⟩ := ih fun other member => permitted other (List.mem_cons_of_mem _ member)
    have allowed := permitted lexeme List.mem_cons_self
    rw [tokensOf_cons]
    cases lexeme with
    | keyword name =>
      refine ⟨fun rest same => by simp [Lexeme.tokens] at same, fun word rest same => ?_⟩
      simp only [Lexeme.tokens, List.singleton_append, List.cons.injEq] at same
      exact first rest same.2
    | operator symbol =>
      refine ⟨fun rest same => ?_, fun word rest same => by simp [Lexeme.tokens] at same⟩
      simp only [Lexeme.tokens, List.singleton_append, List.cons.injEq, Sql.Token.op.injEq] at same
      rw [same.1] at allowed
      exact absurd allowed (by simp [Permitted])
    | wildcard => exact absurd allowed id
    | typeName name =>
      have plain : Sql.Token.op ['*'] ∉ (Sql.lex name).getD [] := by
        rcases allowed with rfl | rfl | ⟨prop, member, rfl⟩
        · decide
        · decide
        · exact types prop member
      simp only [Lexeme.tokens]
      cases read : (Sql.lex name).getD [] with
      | nil => exact ⟨first, second⟩
      | cons token more =>
        rw [read] at plain
        cases more with
        | nil =>
          refine ⟨fun rest same => plain (by simp_all), fun word rest same => ?_⟩
          simp only [List.singleton_append, List.cons.injEq] at same
          exact first rest same.2
        | cons next more => exact ⟨fun rest same => plain (by simp_all), fun word rest same => plain (by simp_all)⟩
    | source word path =>
      refine ⟨fun rest same => by simp [Lexeme.tokens] at same, fun other rest same => ?_⟩
      have some : ∃ name more, path = name :: more := by
        rcases allowed with rfl | rfl
        · unfold tablePath
          split
          · exact ⟨_, _, rfl⟩
          · split <;> exact ⟨_, _, rfl⟩
        · exact ⟨_, _, rfl⟩
      obtain ⟨name, more, rfl⟩ := some
      cases more <;> simp [Lexeme.tokens] at same
    | integer value => exact ⟨fun rest same => by simp [Lexeme.tokens, numberTokens] at same; grind,
        fun word rest same => by simp [Lexeme.tokens, numberTokens] at same; grind⟩
    | float value => exact ⟨fun rest same => by simp [Lexeme.tokens, numberTokens] at same; grind,
        fun word rest same => by simp [Lexeme.tokens, numberTokens] at same; grind⟩
    | _ => exact ⟨fun rest same => by simp [Lexeme.tokens] at same, fun word rest same => by simp [Lexeme.tokens] at same⟩

private theorem wildcard_lex {entity : EdmEntity} (empty : entity.properties = []) (entitySet : Str) (maxTop : Int) :
    ∃ compiled rest, compileStatements { entitySet } entity maxTop = .ok (compiled, none) ∧
      Sql.lex compiled.sql = some (.word "SELECT".toList :: .op ['*'] :: rest) := by
  have compiles : ∃ compiled, compileCollection { entitySet } entity maxTop = .ok compiled := by
    have columns : selectedProperties { entitySet } entity = .ok [] := congrArg Except.ok empty
    unfold compileCollection compileSelectList
    rw [columns]
    exact ⟨_, rfl⟩
  obtain ⟨compiled, done⟩ := compiles
  have types : WellFormedTypes entity := fun prop member => absurd (empty ▸ member) List.not_mem_nil
  have compiledText : (Statement.collection { entitySet } maxTop).compile entity = .ok compiled := done
  have lexes := (Statement.lexes types compiledText).lex
  have wildcard : selectLexemes { entitySet } entity = [.wildcard] := by
    simp [selectLexemes, selectedColumns, empty]
  simp only [Statement.lexemes, wildcard, tokensOf_cons, Lexeme.tokens, List.singleton_append] at lexes
  refine ⟨compiled, _, ?_, lexes⟩
  unfold compileStatements
  rw [done]
  rfl

/-- Some current column is on the allow-list. -/
def SomeAllowed (catalog : Catalog) (binding : EntityBinding) : Prop :=
  ∃ columns, catalog.columns (scopeOf binding) = .ok columns ∧ ∃ row ∈ columns, Allows binding row.columnName

private theorem someAllowed_iff {catalog : Catalog} {binding : EntityBinding} {built : EdmEntity}
    (resolved : buildEntity catalog binding = .ok built) :
    SomeAllowed catalog binding ↔ ∃ prop ∈ built.properties, Allows binding prop.name := by
  obtain ⟨columns, keys, live, same⟩ := buildEntity_columns resolved
  rw [same, List.map_map]
  constructor
  · rintro ⟨other, live', row, listed, allowed⟩
    rw [live] at live'
    cases live'
    refine ⟨_, List.mem_map_of_mem listed, ?_⟩
    rw [Function.comp_apply, (markKey_same keys (propertyOf row)).1]
    exact allowed
  · rintro ⟨prop, member, allowed⟩
    obtain ⟨row, listed, rfl⟩ := List.mem_map.mp member
    rw [Function.comp_apply, (markKey_same keys (propertyOf row)).1] at allowed
    exact ⟨columns, live, row, listed, allowed⟩

private theorem metadata_allows {catalog : Catalog} {binding : EntityBinding} (listed : binding.configuredColumns ≠ [])
    (entity : EdmEntity) (declared : metadataEntity catalog binding = some entity) :
    ∀ prop ∈ entity.properties, Allows binding prop.name := by
  unfold metadataEntity at declared
  split at declared
  next built resolved =>
    cases declared
    exact fun prop member => ((applyColumnPolicy_visible listed).properties prop member).2
  next => cases declared

private theorem control_lex : ∀ sql ∈ controlStatements, (Sql.lex sql).map List.head? ≠ some (some (.word "SELECT".toList)) := by
  decide

/-- If no current column is on the list, the collection is read with a wildcard. -/
theorem wildcard_escapes {catalog : Catalog} {binding : EntityBinding} {built : EdmEntity} (listed : binding.configuredColumns ≠ [])
    (types : PlainTypes catalog binding) (resolved : buildEntity catalog binding = .ok built)
    (hidden : ¬ SomeAllowed catalog binding) (addressable : Addressable binding.name) : ¬ Confines catalog binding := by
  intro confines
  have empty : (applyColumnPolicy built binding).properties = [] := by
    have none := mt (applyColumnPolicy_some listed).mp (mt (someAllowed_iff resolved).mpr hidden)
    exact not_not.mp none
  obtain ⟨reaches, keyless⟩ := sole_reaches addressable resolved
  have keeps := confines.statements (fun _ => none) _ _ reaches.found
  rw [reaches.handles, if_neg (not_not.mpr keyless)] at keeps
  obtain ⟨compiled, rest, done, lexed⟩ := wildcard_lex empty binding.name 10000
  rw [sole_collection done] at keeps
  rcases keeps.1 with control | ⟨other, lexemes, resolved', lexed', permitted⟩
  · exact control_lex _ control (by rw [lexed]; rfl)
  · rw [resolved] at resolved'
    cases resolved'
    rw [lexed, Option.some.injEq] at lexed'
    refine (permitted_star ?_ lexemes permitted).2 _ _ lexed'.symm
    apply buildEntity_types (fun type => Sql.Token.op ['*'] ∉ (Sql.lex type).getD []) ?_ resolved
    exact fun columns live row current => (types columns live row current).2

/-- The allow-list holds exactly if the table does not resolve, some current
column is on the list, or no path can name the binding. -/
theorem confines_iff (catalog : Catalog) (binding : EntityBinding) (listed : binding.configuredColumns ≠ [])
    (types : PlainTypes catalog binding) :
    Confines catalog binding ↔
      (∃ failure, buildEntity catalog binding = .error failure) ∨ SomeAllowed catalog binding ∨ ¬ Addressable binding.name := by
  constructor
  · intro confines
    cases resolved : buildEntity catalog binding with
    | error failure => exact .inl ⟨failure, rfl⟩
    | ok built =>
      refine .inr (Classical.byContradiction fun otherwise => ?_)
      obtain ⟨hidden, addressable⟩ := not_or.mp otherwise
      exact wildcard_escapes listed types resolved hidden (not_not.mp addressable) confines
  · intro condition
    refine ⟨fun read state request found => ?_, metadata_allows listed⟩
    refine keeps_request fun other built named found' resolved => ?_
    rw [found] at found'
    cases found'
    rcases condition with ⟨failure, missing⟩ | current | hidden
    · cases missing.symm.trans resolved
    · exact visible_statements types resolved (applyColumnPolicy_visible listed)
        ((applyColumnPolicy_some listed).mpr ((someAllowed_iff resolved).mp current))
    · exact absurd (findBinding_addressable named found) hidden

private def textColumns (names : List String) : Catalog where
  columns _ := .ok (names.map fun name => { columnName := name.toList, dataType := "VARCHAR".toList })
  primaryKeys _ := .ok []

private theorem plain_varchar : WellFormedType "VARCHAR".toList ∧ Sql.Token.op ['*'] ∉ (Sql.lex "VARCHAR".toList).getD [] := by
  refine ⟨⟨Sql.lexes_word _ (by decide), ?_, ?_⟩, ?_⟩ <;> decide

private theorem textColumns_plain (names : List String) (binding : EntityBinding) : PlainTypes (textColumns names) binding := by
  intro columns live row member
  cases live
  obtain ⟨name, -, rfl⟩ := List.mem_map.mp member
  exact plain_varchar

private def listing (column : String) : EntityBinding where
  name := "people".toList
  table := "people".toList
  configuredColumns := [column.toList]

/-- A column of the list is there: the list holds. -/
theorem confines_iff_listed : Confines (textColumns ["id", "secret"]) (listing "id") :=
  (confines_iff _ _ (List.cons_ne_nil _ _) (textColumns_plain _ _)).mpr
    (.inr (.inl ⟨_, rfl, _, List.mem_cons_self, _, List.mem_cons_self, rfl⟩))

/-- The only column of the list was renamed: the whole table is read. -/
theorem confines_renamed : ¬ Confines (textColumns ["number", "secret"]) (listing "id") := by
  refine wildcard_escapes (List.cons_ne_nil _ _) (textColumns_plain _ _) rfl ?_ ⟨List.cons_ne_nil _ _, every (by decide)⟩
  rintro ⟨columns, live, row, current, column, listed, same⟩
  cases live
  have only : column = "id".toList := List.mem_singleton.mp listed
  simp only [List.map_cons, List.map_nil, List.mem_cons, List.not_mem_nil, or_false] at current
  rcases current with rfl | rfl <;> exact absurd (only ▸ same) (by decide)

end DuckdbOdata.Confinement
