import DuckdbOdata.Proofs.SqlContents

/-! The tokens of whole statements. Whatever the client sends, the text of a
compiled query lexes to tokens of the fixed vocabulary, of the entity, and of
single string literals that hold the client's strings. -/

namespace DuckdbOdata.SqlTokens
open Text Binary64 FilterGrammar

/-- The statements that a query compiles to. -/
inductive Statement
  | collection (query : ODataQuery) (maxTop : Int)
  | count (query : ODataQuery)
  | byKey (query : ODataQuery) (keyValues : List Str)

def Statement.compile (entity : EdmEntity) : Statement → Except Exn CompiledQuery
  | .collection query maxTop => compileCollection query entity maxTop
  | .count query => compileCount query entity
  | .byKey query keyValues => compileByKey query entity keyValues

def selectedColumns (query : ODataQuery) (entity : EdmEntity) : List EdmProperty :=
  if query.select = [] then entity.properties else query.select.filterMap (firstProperty entity)

def columnLexemes (columns : List EdmProperty) : List Lexeme :=
  [.punctuation ','].intercalate (columns.map fun prop => [.column prop.name])

def selectLexemes (query : ODataQuery) (entity : EdmEntity) : List Lexeme :=
  if selectedColumns query entity = [] then [.wildcard] else columnLexemes (selectedColumns query entity)

def whereLexemes (query : ODataQuery) (entity : EdmEntity) : List Lexeme :=
  match query.filter with
  | none => []
  | some filter => .keyword "WHERE".toList :: exprLexemes entity filter

def orderItemLexemes (term : OrderByTerm) : List Lexeme :=
  [.column term.property, .keyword (if term.order = .desc then "DESC".toList else "ASC".toList)]

def orderLexemes (query : ODataQuery) : List Lexeme :=
  if query.orderBy = [] then []
  else .keyword "ORDER".toList :: .keyword "BY".toList :: [.punctuation ','].intercalate (query.orderBy.map orderItemLexemes)

def limitLexemes (top skip : Int) : List Lexeme :=
  (if 0 ≤ top then [.keyword "LIMIT".toList, .integer top] else []) ++
    (if 0 ≤ skip then [.keyword "OFFSET".toList, .integer skip] else [])

def keyLiteralLexemes (prop : EdmProperty) (rawValue : Str) : List Lexeme :=
  if prop.edmType = .string ∨ prop.edmType = .guid ∨ prop.edmType = .binary then [.clientString (unquoteKey rawValue)]
  else castLexemes (unquoteKey rawValue) prop.duckdbType

def conditionLexemes (condition : EdmProperty × Str) : List Lexeme :=
  .column condition.1.name :: .operator "=".toList :: keyLiteralLexemes condition.1 condition.2

def keyConditions (entity : EdmEntity) (keyValues : List Str) : List (EdmProperty × Str) :=
  (entity.properties.filter (·.isKey)).zip keyValues

def Statement.lexemes (entity : EdmEntity) : Statement → List Lexeme
  | .collection query maxTop =>
    .keyword "SELECT".toList :: (selectLexemes query entity ++ .source "FROM".toList (tablePath entity) ::
      (whereLexemes query entity ++ (orderLexemes query ++ limitLexemes (cappedTop query maxTop) query.skip)))
  | .count query =>
    .keyword "SELECT".toList :: .countAll :: .keyword "AS".toList :: .keyword "__odata_count".toList ::
      .source "FROM".toList (tablePath entity) :: whereLexemes query entity
  | .byKey query keyValues =>
    .keyword "SELECT".toList :: (selectLexemes query entity ++ .source "FROM".toList (tablePath entity) ::
      .keyword "WHERE".toList :: ([.keyword "AND".toList].intercalate ((keyConditions entity keyValues).map conditionLexemes) ++
        [.keyword "LIMIT".toList, .integer 1]))

/-- Each result is the one its item determines. -/
theorem mapM_ok {step : α → Except Exn β} {items : List α} {results : List β} (done : items.mapM step = .ok results) :
    List.Forall₂ (fun item result => step item = .ok result) items results := by
  induction items generalizing results with
  | nil => cases done; exact .nil
  | cons item others ih =>
    rw [List.mapM_cons] at done
    obtain ⟨result, first, more⟩ := bind_ok done
    obtain ⟨rest, later, same⟩ := bind_ok more
    cases same
    exact .cons first (ih later)

theorem tokensOf_intercalate (between : List Lexeme) (items : List (List Lexeme)) :
    tokensOf (between.intercalate items) = (tokensOf between).intercalate (items.map tokensOf) := by
  induction items with
  | nil => rfl
  | cons item others ih =>
    cases others with
    | nil => simp
    | cons next others => simpa using ih

/-- A qualified name: points between quoted identifiers. -/
theorem lexes_path (names : List Str) (last : Str) :
    Sql.Lexes (".".toList.intercalate ((names ++ [last]).map quoteIdentifier))
      ([.punct '.'].intercalate ((names ++ [last]).map fun name => [.ident name])) := by
  induction names with
  | nil => simpa [quoteIdentifier] using Sql.lexes_ident last
  | cons name names ih =>
    obtain ⟨next, others, same⟩ : ∃ next others, names ++ [last] = next :: others := by cases names <;> exact ⟨_, _, rfl⟩
    rw [same] at ih
    rw [List.cons_append, same]
    simpa [quoteIdentifier] using (Sql.opens_qualifier name).then ih

private theorem lexes_table (entity : EdmEntity) :
    Sql.Lexes (quotedTable entity) ([.punct '.'].intercalate ((tablePath entity).map fun name => [.ident name])) := by
  unfold quotedTable tablePath
  split
  next => simpa using lexes_path [entity.catalog, entity.schema] entity.table
  split
  next => simpa using lexes_path [entity.schema] entity.table
  next => simpa using lexes_path [] entity.table

private theorem opens_comma : Sql.Opens ", ".toList [.punct ','] := Sql.opens_comma.append Sql.opens_space

private theorem selected_found {entity : EdmEntity} {names : List Str} {selected : List EdmProperty}
    (each : List.Forall₂ (fun name prop => selectedProperty entity name = .ok prop) names selected) :
    selected = names.filterMap (firstProperty entity) := by
  induction each with
  | nil => rfl
  | @cons name prop names props found _ ih =>
    unfold selectedProperty at found
    split at found
    next other same =>
      cases found
      rw [List.filterMap_cons_some same, ih]
    next => cases found

theorem selectedProperties_ok {query : ODataQuery} {entity : EdmEntity} {selected : List EdmProperty}
    (done : selectedProperties query entity = .ok selected) : selected = selectedColumns query entity := by
  unfold selectedProperties at done
  unfold selectedColumns
  by_cases all : query.select = []
  · rw [if_pos all] at done ⊢
    cases done
    rfl
  · rw [if_neg all] at done ⊢
    exact selected_found (mapM_ok done)

private theorem lexes_select {query : ODataQuery} {entity : EdmEntity} {text : Str}
    (done : compileSelectList query entity = .ok text) : Sql.Lexes text (tokensOf (selectLexemes query entity)) := by
  obtain ⟨selected, found, same⟩ := bind_ok done
  cases selectedProperties_ok found
  cases same
  unfold selectLexemes
  split
  next none => simpa [Lexeme.tokens] using Sql.lexes_operator ['*'] (by decide)
  next some =>
    rw [columnLexemes, tokensOf_intercalate, List.map_map]
    exact Sql.lexes_intercalate opens_comma rfl Sql.breaks_comma _ _ _ fun prop _ => by
      simpa [quoteIdentifier, Lexeme.tokens] using Sql.lexes_ident prop.name

/-- A keyword and the text after it. -/
theorem lexes_after (name : Str) {text : Str} {tokens : List Sql.Token} (word : Sql.isWord name) (lexes : Sql.Lexes text tokens) :
    Sql.Lexes (name ++ ' ' :: text) (.word name :: tokens) := (Sql.lexes_word name word).spaced lexes

private theorem numberTokens_some (negative : Bool) (digits : Str) : numberTokens negative digits ≠ [] := by
  cases negative <;> exact List.cons_ne_nil _ _

private theorem literalLexemes_tokens (target : Str) (value : LiteralExpr) : tokensOf (literalLexemes target value) ≠ [] := by
  cases value with
  | null => exact List.cons_ne_nil _ _
  | boolean value => exact List.cons_ne_nil _ _
  | integer value =>
    rw [literalLexemes, tokensOf, List.flatMap_singleton]
    exact numberTokens_some _ _
  | float value =>
    rw [literalLexemes, tokensOf, List.flatMap_singleton]
    exact numberTokens_some _ _
  | string value =>
    rw [literalLexemes]
    split <;> exact List.cons_ne_nil _ _

private theorem exprLexemes_tokens (entity : EdmEntity) (expr : Expr) : tokensOf (exprLexemes entity expr) ≠ [] := by
  have test : ∀ op, tokensOf (nullTestLexemes op) ≠ [] := by intro op; cases op <;> simp [nullTestLexemes, Lexeme.tokens]
  have joined : ∀ op first last, tokensOf (joinedLexemes op first last) ≠ [] := by
    intro op first last
    cases op <;> simp [joinedLexemes, operatorLexeme, Lexeme.tokens]
  cases expr with
  | property name => simp [exprLexemes, Lexeme.tokens]
  | literal value =>
    rw [exprLexemes]
    exact literalLexemes_tokens _ value
  | unary op child => cases op; simp [exprLexemes, Lexeme.tokens]
  | binary op left right =>
    rw [exprLexemes]
    cases binaryForm op left right with
    | testRight => simp [test]
    | testLeft => simp [test]
    | _ => exact joined _ _ _
  | functionCall name args => simp [exprLexemes, Lexeme.tokens]

private theorem clause_where {query : ODataQuery} {entity : EdmEntity} (types : WellFormedTypes entity) {text : Str}
    (done : compileFilterText query entity = .ok text) : Sql.Clause (whereClause text) (tokensOf (whereLexemes query entity)) := by
  unfold compileFilterText at done
  unfold whereLexemes whereClause
  cases filter : query.filter with
  | none =>
    rw [filter] at done
    cases done
    exact .none
  | some filter' =>
    rw [filter] at done
    have lexes := compile_lexes types filter' text done
    have some : text ≠ [] := by
      rintro rfl
      exact exprLexemes_tokens entity filter' (by simpa using lexes.lex.symm)
    rw [if_neg some]
    exact (lexes_after "WHERE".toList (by decide) lexes).clause

/-- The text of a sort term. -/
def orderText (term : OrderByTerm) : Str :=
  quoteIdentifier term.property ++ if term.order = .desc then " DESC".toList else " ASC".toList

private theorem order_found {entity : EdmEntity} {terms : List OrderByTerm} {texts : List Str}
    (each : List.Forall₂ (fun term text => orderItem entity term = .ok text) terms texts) :
    texts = terms.map orderText ∧ ∀ term ∈ terms, ∃ prop ∈ entity.properties, sameName prop.name term.property := by
  induction each with
  | nil => exact ⟨rfl, nofun⟩
  | @cons term text terms texts found _ ih =>
    unfold orderItem at found
    split at found
    next prop named =>
      cases found
      refine ⟨by rw [ih.1]; rfl, ?_⟩
      intro other member
      rcases List.mem_cons.mp member with rfl | member
      · exact ⟨prop, List.mem_of_find?_eq_some named, by simpa using List.find?_some named⟩
      · exact ih.2 other member
    next => cases found

theorem orderClause_ok {query : ODataQuery} {entity : EdmEntity} {text : Str} (done : orderClause query entity = .ok text) :
    (text = if query.orderBy = [] then [] else " ORDER BY ".toList ++ ", ".toList.intercalate (query.orderBy.map orderText)) ∧
      ∀ term ∈ query.orderBy, ∃ prop ∈ entity.properties, sameName prop.name term.property := by
  unfold orderClause at done
  split at done
  next none =>
    cases done
    simp [none]
  next some =>
    obtain ⟨items, found, same⟩ := bind_ok done
    cases same
    obtain ⟨rfl, named⟩ := order_found (mapM_ok found)
    exact ⟨by rw [if_neg some], named⟩

private theorem lexes_orderText (term : OrderByTerm) : Sql.Lexes (orderText term) (tokensOf (orderItemLexemes term)) := by
  have name := Sql.lexes_ident term.property
  unfold orderText orderItemLexemes
  cases term.order with
  | asc => simpa [quoteIdentifier, Lexeme.tokens] using name.spaced (Sql.lexes_word "ASC".toList (by decide))
  | desc => simpa [quoteIdentifier, Lexeme.tokens] using name.spaced (Sql.lexes_word "DESC".toList (by decide))

private theorem clause_order {query : ODataQuery} {entity : EdmEntity} {text : Str}
    (done : orderClause query entity = .ok text) : Sql.Clause text (tokensOf (orderLexemes query)) := by
  rw [(orderClause_ok done).1]
  unfold orderLexemes
  split
  next => exact .none
  next =>
    have items := Sql.lexes_intercalate opens_comma rfl Sql.breaks_comma query.orderBy orderText
      (fun term => tokensOf (orderItemLexemes term)) fun term _ => lexes_orderText term
    have whole := (lexes_after "ORDER".toList (by decide) (lexes_after "BY".toList (by decide) items)).clause
    simpa [Lexeme.tokens, tokensOf_intercalate, Function.comp_def] using whole

private theorem clause_number (name : Str) (word : Sql.isWord name) (value : Int) :
    Sql.Clause (if 0 ≤ value then ' ' :: (name ++ ' ' :: intText value) else [])
      (tokensOf (if 0 ≤ value then [.keyword name, .integer value] else [])) := by
  split
  next =>
    rw [tokensOf_cons, tokensOf_cons, tokensOf_nil, List.append_nil]
    exact (lexes_after name word (lexes_int value)).clause
  next => exact .none

private theorem clause_limit (top skip : Int) : Sql.Clause (limitClause top skip) (tokensOf (limitLexemes top skip)) := by
  have limit := clause_number "LIMIT".toList (by decide) top
  have offset := clause_number "OFFSET".toList (by decide) skip
  rw [limitLexemes, tokensOf_append]
  exact limit.append offset

private theorem lexes_keyLiteral {prop : EdmProperty} (type : WellFormedType prop.duckdbType) (rawValue : Str) :
    Sql.Lexes (keyLiteralSql prop rawValue) (tokensOf (keyLiteralLexemes prop rawValue)) := by
  unfold keyLiteralSql keyLiteralLexemes
  split
  next => exact Sql.lexes_str (unquoteKey rawValue)
  next => exact lexes_cast type

private theorem lexes_condition {condition : EdmProperty × Str} (type : WellFormedType condition.1.duckdbType) :
    Sql.Lexes (quoteIdentifier condition.1.name ++ " = ".toList ++ keyLiteralSql condition.1 condition.2)
      (tokensOf (conditionLexemes condition)) := by
  have equals : Sql.Lexes "=".toList (Lexeme.operator "=".toList).tokens := Sql.lexes_operator _ (by decide)
  have whole := (Sql.lexes_ident condition.1.name).spaced (equals.spaced (lexes_keyLiteral type condition.2))
  simpa [conditionLexemes, quoteIdentifier, Lexeme.tokens] using whole

theorem keyConditions_mem {entity : EdmEntity} {keyValues : List Str} {condition : EdmProperty × Str}
    (member : condition ∈ keyConditions entity keyValues) : condition.1 ∈ entity.properties :=
  List.mem_of_mem_filter (List.of_mem_zip member).1

private theorem lexes_conditions {entity : EdmEntity} (types : WellFormedTypes entity) (keyValues : List Str) :
    Sql.Lexes (" AND ".toList.intercalate ((keyConditions entity keyValues).map fun (key, value) =>
        quoteIdentifier key.name ++ " = ".toList ++ keyLiteralSql key value))
      (tokensOf ([.keyword "AND".toList].intercalate ((keyConditions entity keyValues).map conditionLexemes))) := by
  have separator : Sql.Opens " AND ".toList [.word "AND".toList] :=
    Sql.opens_space.append (Sql.lexes_word "AND".toList (by decide)).space
  rw [tokensOf_intercalate, List.map_map]
  exact Sql.lexes_intercalate separator rfl Sql.breaks_space _ _ _ fun condition member =>
    lexes_condition (types condition.1 (keyConditions_mem member))

private theorem lexes_countAll : Sql.Lexes "COUNT(*)".toList Lexeme.countAll.tokens := by
  have star := Sql.lexes_operator ['*'] (by decide)
  exact ((Sql.lexes_word "COUNT".toList (by decide)).opens star.parens rfl Sql.breaks_lparen).lexes

private theorem lexes_from (entity : EdmEntity) {list rest : Str} {columns tokens : List Sql.Token}
    (select : Sql.Lexes list columns) (ends : Sql.Clause rest tokens) :
    Sql.Lexes ("SELECT ".toList ++ list ++ " FROM ".toList ++ quotedTable entity ++ rest)
      (.word "SELECT".toList :: (columns ++ ((Lexeme.source "FROM".toList (tablePath entity)).tokens ++ tokens))) := by
  have table := lexes_after "FROM".toList (by decide) (lexes_table entity)
  have whole := lexes_after "SELECT".toList (by decide) (select.followed (table.followed ends).clause)
  simpa [Lexeme.tokens] using whole

theorem compileByKey_ok {query : ODataQuery} {entity : EdmEntity} {keyValues : List Str} {compiled : CompiledQuery}
    (done : compileByKey query entity keyValues = .ok compiled) :
    keyValues.length = (entity.properties.filter (·.isKey)).length ∧
      ∃ list, compileSelectList query entity = .ok list ∧
        compiled.sql = "SELECT ".toList ++ list ++ " FROM ".toList ++ quotedTable entity ++ " WHERE ".toList ++
          " AND ".toList.intercalate ((keyConditions entity keyValues).map fun (key, value) =>
            quoteIdentifier key.name ++ " = ".toList ++ keyLiteralSql key value) ++ " LIMIT 1".toList := by
  unfold compileByKey at done
  simp only at done
  split at done
  next => cases done
  split at done
  next => cases done
  next count =>
    obtain ⟨list, selected, same⟩ := bind_ok done
    cases same
    exact ⟨not_not.mp count, list, selected, rfl⟩

theorem Statement.lexes {entity : EdmEntity} (types : WellFormedTypes entity) {statement : Statement} {compiled : CompiledQuery}
    (done : statement.compile entity = .ok compiled) : Sql.Lexes compiled.sql (tokensOf (statement.lexemes entity)) := by
  cases statement with
  | collection query maxTop =>
    obtain ⟨list, selected, done⟩ := bind_ok done
    obtain ⟨condition, filtered, done⟩ := bind_ok done
    obtain ⟨order, ordered, same⟩ := bind_ok done
    cases same
    have ends := (clause_where types filtered).append
      ((clause_order ordered).append (clause_limit (cappedTop query maxTop) query.skip))
    simpa [Statement.lexemes, Lexeme.tokens] using lexes_from entity (lexes_select selected) ends
  | count query =>
    obtain ⟨condition, filtered, same⟩ := bind_ok done
    cases same
    have list := lexes_countAll.spaced (lexes_after "AS".toList (by decide)
      (Sql.lexes_word "__odata_count".toList (by decide)))
    simpa [Statement.lexemes, Lexeme.tokens] using lexes_from entity list (clause_where types filtered)
  | byKey query keyValues =>
    obtain ⟨-, list, selected, same⟩ := compileByKey_ok done
    have one : Sql.Clause " LIMIT 1".toList (.word "LIMIT".toList :: (Lexeme.integer 1).tokens) :=
      (lexes_after "LIMIT".toList (by decide) (lexes_int 1)).clause
    have ends := (lexes_after "WHERE".toList (by decide) ((lexes_conditions types keyValues).followed one)).clause
    have whole := lexes_from entity (lexes_select selected) ends
    simpa [same, Statement.lexemes, Lexeme.tokens] using whole

theorem selectedColumns_mem {query : ODataQuery} {entity : EdmEntity} {prop : EdmProperty}
    (member : prop ∈ selectedColumns query entity) : prop ∈ entity.properties := by
  unfold selectedColumns at member
  split at member
  next => exact member
  next =>
    obtain ⟨name, -, found⟩ := List.mem_filterMap.mp member
    exact List.mem_of_find?_eq_some found

private theorem allowed_comma (entity : EdmEntity) : AllAllowed entity [.punctuation ','] := by
  simpa using allowed_punctuation entity (by decide)

theorem allowed_columns {entity : EdmEntity} {columns : List EdmProperty} (members : ∀ prop ∈ columns, prop ∈ entity.properties) :
    AllAllowed entity (columnLexemes columns) := by
  refine allAllowed_intercalate (allowed_comma entity) _ fun item listed => ?_
  obtain ⟨prop, member, rfl⟩ := List.mem_map.mp listed
  simpa [Lexeme.Allowed] using ⟨prop, members prop member, rfl⟩

/-- The wildcard stands for the columns of an entity that has none. -/
theorem selectedColumns_none {query : ODataQuery} {entity : EdmEntity} {text : Str}
    (done : compileSelectList query entity = .ok text) (none : selectedColumns query entity = []) : entity.properties = [] := by
  obtain ⟨selected, found, -⟩ := bind_ok done
  cases selectedProperties_ok found
  unfold selectedColumns at none
  split at none
  next => exact none
  next some =>
    unfold selectedProperties at found
    rw [if_neg some, selectedColumns, if_neg some, none] at found
    have each := mapM_ok found
    generalize query.select = names at each some
    cases each
    exact absurd rfl some

private theorem allowed_select {query : ODataQuery} {entity : EdmEntity} {text : Str}
    (done : compileSelectList query entity = .ok text) : AllAllowed entity (selectLexemes query entity) := by
  unfold selectLexemes
  split
  next none => simpa [Lexeme.Allowed] using selectedColumns_none done none
  next => exact allowed_columns fun prop member => selectedColumns_mem member

private theorem allowed_where {query : ODataQuery} {entity : EdmEntity} {text : Str}
    (done : compileFilterText query entity = .ok text) : AllAllowed entity (whereLexemes query entity) := by
  unfold compileFilterText at done
  unfold whereLexemes
  cases filter : query.filter with
  | none => simp
  | some expr =>
    rw [filter] at done
    simp only [allAllowed_cons]
    exact ⟨allowed_keyword entity _ (by decide), compile_allowed expr text done⟩

private theorem allowed_order {query : ODataQuery} {entity : EdmEntity} {text : Str}
    (done : orderClause query entity = .ok text) : AllAllowed entity (orderLexemes query) := by
  have order := allowed_keyword entity "ORDER".toList (by decide)
  have by' := allowed_keyword entity "BY".toList (by decide)
  unfold orderLexemes
  split
  next => simp
  simp only [allAllowed_cons]
  refine ⟨order, by', allAllowed_intercalate (allowed_comma entity) _ fun item listed => ?_⟩
  obtain ⟨term, member, rfl⟩ := List.mem_map.mp listed
  have named : (Lexeme.column term.property).Allowed entity := (orderClause_ok done).2 term member
  have direction : (if term.order = .desc then "DESC".toList else "ASC".toList) ∈ vocabulary := by
    split <;> decide
  simp only [orderItemLexemes, allAllowed_cons, allAllowed_nil, and_true]
  exact ⟨named, allowed_keyword entity _ direction⟩

private theorem allowed_limit (entity : EdmEntity) (top skip : Int) : AllAllowed entity (limitLexemes top skip) := by
  have number : ∀ {name : Str} (value : Int), name ∈ vocabulary →
      AllAllowed entity (if 0 ≤ value then [.keyword name, .integer value] else []) := by
    intro name value member
    have integer : (Lexeme.integer value).Allowed entity := trivial
    split <;> simp only [allAllowed_cons, allAllowed_nil, and_true, integer, allowed_keyword entity _ member]
  exact (allAllowed_append entity _ _).mpr ⟨number top (by decide), number skip (by decide)⟩

private theorem allowed_conditions (entity : EdmEntity) (keyValues : List Str) :
    AllAllowed entity ([.keyword "AND".toList].intercalate ((keyConditions entity keyValues).map conditionLexemes)) := by
  have separator : AllAllowed entity [.keyword "AND".toList] := by
    simpa only [allAllowed_cons, allAllowed_nil, and_true] using allowed_keyword entity _ (by decide)
  refine allAllowed_intercalate separator _ fun item listed => ?_
  obtain ⟨condition, member, rfl⟩ := List.mem_map.mp listed
  have property := keyConditions_mem member
  have column : (Lexeme.column condition.1.name).Allowed entity := ⟨condition.1, property, rfl⟩
  have equals : (Lexeme.operator "=".toList).Allowed entity := by simp [Lexeme.Allowed]
  have literal : AllAllowed entity (keyLiteralLexemes condition.1 condition.2) := by
    unfold keyLiteralLexemes
    split
    next => simp [Lexeme.Allowed]
    next => exact allowed_cast (.inr (.inr ⟨condition.1, property, rfl⟩)) _
  simp only [conditionLexemes, allAllowed_cons]
  exact ⟨column, equals, literal⟩

private theorem allowed_from {entity : EdmEntity} (list : List Lexeme) {rest : List Lexeme} (select : AllAllowed entity list)
    (ends : AllAllowed entity rest) :
    AllAllowed entity (.keyword "SELECT".toList :: (list ++ .source "FROM".toList (tablePath entity) :: rest)) := by
  simp only [allAllowed_cons, allAllowed_append]
  exact ⟨allowed_keyword entity _ (by decide), select, ⟨rfl, rfl⟩, ends⟩

theorem Statement.allowed {entity : EdmEntity} {statement : Statement} {compiled : CompiledQuery}
    (done : statement.compile entity = .ok compiled) : AllAllowed entity (statement.lexemes entity) := by
  cases statement with
  | collection query maxTop =>
    obtain ⟨list, selected, done⟩ := bind_ok done
    obtain ⟨condition, filtered, done⟩ := bind_ok done
    obtain ⟨order, ordered, -⟩ := bind_ok done
    refine allowed_from _ (allowed_select selected) ?_
    simp only [allAllowed_append]
    exact ⟨allowed_where filtered, allowed_order ordered, allowed_limit entity _ _⟩
  | count query =>
    obtain ⟨condition, filtered, -⟩ := bind_ok done
    refine allowed_from [.countAll, .keyword "AS".toList, .keyword "__odata_count".toList] ?_ (allowed_where filtered)
    simp only [allAllowed_cons, allAllowed_nil, and_true]
    exact ⟨trivial, allowed_keyword entity _ (by decide), allowed_keyword entity _ (by decide)⟩
  | byKey query keyValues =>
    obtain ⟨-, list, selected, -⟩ := compileByKey_ok done
    refine allowed_from _ (allowed_select selected) ?_
    simp only [allAllowed_cons, allAllowed_append, allAllowed_nil, and_true]
    exact ⟨allowed_keyword entity _ (by decide), allowed_conditions entity keyValues, allowed_keyword entity _ (by decide), trivial⟩

/-- No lexeme is a comment or ends the statement. -/
theorem allowed_single {entity : EdmEntity} (types : WellFormedTypes entity) {lexeme : Lexeme} (allowed : lexeme.Allowed entity) :
    ∀ token ∈ lexeme.tokens, token ≠ .comment ∧ token ≠ .punct ';' := by
  have number : ∀ negative digits, ∀ token ∈ numberTokens negative digits, token ≠ .comment ∧ token ≠ .punct ';' := by
    intro negative digits token member
    cases negative <;> simp [numberTokens] at member <;> grind
  cases lexeme with
  | typeName name => exact (CastTarget.wellFormed allowed types).single
  | integer value => exact number _ _
  | float value => exact number _ _
  | punctuation c =>
    intro token member
    cases List.mem_singleton.mp member
    refine ⟨by simp, ?_⟩
    rintro same
    cases same
    exact absurd allowed (by simp [Lexeme.Allowed])
  | source word path =>
    intro token member
    rcases source_tokens member with rfl | rfl | ⟨name, rfl⟩ <;> exact ⟨by simp, by simp⟩
  | _ => intro token member; simp [Lexeme.tokens] at member; grind

/-- The string literals and key values that the client sent. -/
def Statement.strings : Statement → List Str
  | .collection query _ => query.filter.elim [] stringsOf
  | .count query => query.filter.elim [] stringsOf
  | .byKey _ keyValues => keyValues.map unquoteKey

/-- The statement with every string literal and key value emptied. -/
def Statement.blank : Statement → Statement
  | .collection query maxTop => .collection { query with filter := query.filter.map SqlTokens.blank } maxTop
  | .count query => .count { query with filter := query.filter.map SqlTokens.blank }
  | .byKey query keyValues => .byKey query (keyValues.map fun _ => [])

private theorem strings_select (query : ODataQuery) (entity : EdmEntity) : clientStrings (selectLexemes query entity) = [] := by
  unfold selectLexemes
  split
  next => rfl
  next =>
    rw [columnLexemes, clientStrings_intercalate rfl]
    simp [Lexeme.clientStrings]

private theorem strings_where (query : ODataQuery) (entity : EdmEntity) :
    clientStrings (whereLexemes query entity) = query.filter.elim [] stringsOf := by
  unfold whereLexemes
  cases query.filter with
  | none => rfl
  | some filter => simp [exprLexemes_strings, Lexeme.clientStrings]

private theorem strings_order (query : ODataQuery) : clientStrings (orderLexemes query) = [] := by
  unfold orderLexemes
  split
  next => rfl
  next => simp [clientStrings_intercalate, orderItemLexemes, Lexeme.clientStrings]

private theorem strings_limit (top skip : Int) : clientStrings (limitLexemes top skip) = [] := by
  unfold limitLexemes
  split <;> split <;> rfl

private theorem strings_condition (condition : EdmProperty × Str) :
    clientStrings (conditionLexemes condition) = [unquoteKey condition.2] := by
  have literal : clientStrings (keyLiteralLexemes condition.1 condition.2) = [unquoteKey condition.2] := by
    unfold keyLiteralLexemes
    split <;> rfl
  simp [conditionLexemes, literal, Lexeme.clientStrings]

theorem Statement.lexemes_strings {entity : EdmEntity} {statement : Statement} {compiled : CompiledQuery}
    (done : statement.compile entity = .ok compiled) : clientStrings (statement.lexemes entity) = statement.strings := by
  cases statement with
  | collection query maxTop =>
    simp [Statement.lexemes, Statement.strings, strings_select, strings_where, strings_order, strings_limit,
      Lexeme.clientStrings]
  | count query =>
    simp [Statement.lexemes, Statement.strings, strings_where, Lexeme.clientStrings]
  | byKey query keyValues =>
    have same := (compileByKey_ok done).1
    have second : (keyConditions entity keyValues).map Prod.snd = keyValues := List.map_snd_zip same.le
    have values : (keyConditions entity keyValues).flatMap (fun condition => [unquoteKey condition.2]) = keyValues.map unquoteKey := by
      rw [← List.map_eq_flatMap, ← congrArg (List.map unquoteKey) second, List.map_map]
      rfl
    simp [Statement.lexemes, Statement.strings, strings_select, clientStrings_intercalate, List.flatMap_map,
      strings_condition, values, Lexeme.clientStrings]

def blankToken : Sql.Token → Sql.Token
  | .str _ => .str []
  | token => token

/-- The tokens without the contents of the string literals. -/
def skeleton (tokens : List Sql.Token) : List Sql.Token := tokens.map blankToken

theorem skeleton_blank (lexemes : List Lexeme) : skeleton (tokensOf (lexemes.map Lexeme.blank)) = skeleton (tokensOf lexemes) := by
  have each : ∀ lexeme : Lexeme, skeleton lexeme.blank.tokens = skeleton lexeme.tokens := by
    intro lexeme
    cases lexeme <;> rfl
  induction lexemes with
  | nil => rfl
  | cons lexeme lexemes ih =>
    simp only [skeleton] at each ih ⊢
    simp [each, ih]

private theorem blank_none {lexemes : List Lexeme} (none : clientStrings lexemes = []) : lexemes.map Lexeme.blank = lexemes := by
  induction lexemes with
  | nil => rfl
  | cons lexeme lexemes ih =>
    rw [clientStrings_cons, List.append_eq_nil_iff] at none
    have same : lexeme.blank = lexeme := by
      cases lexeme with
      | clientString value => cases none.1
      | _ => rfl
    rw [List.map_cons, same, ih none.2]

private theorem whereLexemes_blank (query : ODataQuery) (entity : EdmEntity) :
    whereLexemes { query with filter := query.filter.map SqlTokens.blank } entity =
      (whereLexemes query entity).map Lexeme.blank := by
  unfold whereLexemes
  cases query.filter with
  | none => rfl
  | some filter =>
    simp only [Option.map_some, exprLexemes_blank, List.map_cons]
    rfl

private theorem conditionLexemes_blank (condition : EdmProperty × Str) :
    conditionLexemes (condition.1, []) = (conditionLexemes condition).map Lexeme.blank := by
  have literal : keyLiteralLexemes condition.1 [] = (keyLiteralLexemes condition.1 condition.2).map Lexeme.blank := by
    unfold keyLiteralLexemes
    split <;> rfl
  simp only [conditionLexemes, literal]
  rfl

private theorem conditions_blank (entity : EdmEntity) (keyValues : List Str) :
    [Lexeme.keyword "AND".toList].intercalate ((keyConditions entity (keyValues.map fun _ => [])).map conditionLexemes) =
      ([Lexeme.keyword "AND".toList].intercalate ((keyConditions entity keyValues).map conditionLexemes)).map Lexeme.blank := by
  have zipped : keyConditions entity (keyValues.map fun _ => []) = (keyConditions entity keyValues).map fun condition =>
      (condition.1, []) := by
    rw [keyConditions, List.zip_map_right]
    rfl
  rw [zipped, map_intercalate, List.map_map, List.map_map]
  congr 1
  exact List.map_congr_left fun condition _ => conditionLexemes_blank condition

theorem Statement.lexemes_blank (entity : EdmEntity) (statement : Statement) :
    statement.blank.lexemes entity = (statement.lexemes entity).map Lexeme.blank := by
  have select := fun query => blank_none (strings_select query entity)
  cases statement with
  | collection query maxTop =>
    have order := blank_none (strings_order query)
    have limit := blank_none (strings_limit (cappedTop query maxTop) query.skip)
    simp only [Statement.blank, Statement.lexemes, whereLexemes_blank, List.map_cons, List.map_append, select, order, limit]
    rfl
  | count query =>
    simp only [Statement.blank, Statement.lexemes, whereLexemes_blank, List.map_cons]
    rfl
  | byKey query keyValues =>
    simp only [Statement.blank, Statement.lexemes, conditions_blank, List.map_cons, List.map_append, select]
    rfl

/-- The text of a compiled statement lexes to tokens of known origin: its string
literals that are not part of a type name hold the client's strings and key
values, one each and in order, and its columns are properties of the entity.
There is no comment and one statement only, and two statements that differ in
the client's strings have the same tokens up to the contents of strings. -/
theorem statement_tokens (entity : EdmEntity) (types : WellFormedTypes entity) (statement : Statement) (compiled : CompiledQuery)
    (done : statement.compile entity = .ok compiled) :
    Sql.lex compiled.sql = some (tokensOf (statement.lexemes entity)) ∧
      (∀ lexeme ∈ statement.lexemes entity, lexeme.Allowed entity) ∧
      (∀ token ∈ tokensOf (statement.lexemes entity), token ≠ .comment ∧ token ≠ .punct ';') ∧
      clientStrings (statement.lexemes entity) = statement.strings ∧
      ∀ (other : Statement) (result : CompiledQuery), other.compile entity = .ok result → other.blank = statement.blank →
        (Sql.lex result.sql).map skeleton = (Sql.lex compiled.sql).map skeleton := by
  have allowed := statement.allowed done
  refine ⟨(statement.lexes types done).lex, allowed, ?_, statement.lexemes_strings done, ?_⟩
  · intro token member
    obtain ⟨lexeme, listed, member⟩ := List.mem_flatMap.mp member
    exact allowed_single types (allowed lexeme listed) token member
  · intro other result compiledOther same
    rw [(other.lexes types compiledOther).lex, (statement.lexes types done).lex, Option.map_some, Option.map_some,
      ← skeleton_blank, ← other.lexemes_blank, same, statement.lexemes_blank, skeleton_blank]

private def orders : EdmEntity where
  table := "orders".toList
  properties := [{ name := "id".toList, edmType := .int64, isKey := true, duckdbType := "BIGINT".toList }]

theorem statement_tokens_key :
    WellFormedTypes orders ∧
      clientStrings (Statement.lexemes orders (.byKey {} ["'1'' OR 1=1 --'".toList])) = ["1' OR 1=1 --".toList] := by
  have types : WellFormedTypes orders := by
    intro prop member
    cases List.mem_singleton.mp member
    exact .bigint
  exact ⟨types, (statement_tokens orders types (.byKey {} ["'1'' OR 1=1 --'".toList])
    ⟨"SELECT \"id\" FROM \"orders\" WHERE \"id\" = CAST('1'' OR 1=1 --' AS BIGINT) LIMIT 1".toList, false⟩ rfl).2.2.2.1⟩

end DuckdbOdata.SqlTokens
