import DuckdbOdata.Foundation.SqlSelect
import DuckdbOdata.Proofs.Precedence
import DuckdbOdata.Proofs.SqlStatements

/-! The statement that a query compiles to, read back as a SELECT: its columns, its
table, its condition, its sort terms and its bounds are those of the query. -/

namespace DuckdbOdata.SelectStatements
open Text FilterGrammar SqlTokens Precedence

def selectionOf (query : ODataQuery) (entity : EdmEntity) : Sql.Selection :=
  if selectedColumns query entity = [] then .all else .columns ((selectedColumns query entity).map (·.name))

theorem selectionOf_listed (query : ODataQuery) (entity : EdmEntity) (name : Str) : selectionOf query entity ≠ .count name := by
  unfold selectionOf
  split <;> nofun

def sortTerm (term : OrderByTerm) : Sql.SortTerm := ⟨term.property, decide (term.order = .desc)⟩

/-- A negative bound is no bound. -/
def boundOf (n : Int) : Option Nat := if 0 ≤ n then some n.toNat else none

/-- A key column compared with its value. -/
def keyTree (condition : EdmProperty × Str) : Sql.Tree :=
  .compare "=".toList (.column condition.1.name)
    (if condition.1.edmType = .string ∨ condition.1.edmType = .guid ∨ condition.1.edmType = .binary then .string (unquoteKey condition.2)
    else .cast (.string (unquoteKey condition.2)) ((Sql.lex condition.1.duckdbType).getD []))

/-- What a statement asks for. -/
def selectOf (entity : EdmEntity) : Statement → Sql.Select
  | .collection query maxTop => {
    selection := selectionOf query entity
    source := tablePath entity
    condition := query.filter.map (image entity)
    order := query.orderBy.map sortTerm
    limit := boundOf (cappedTop query maxTop)
    offset := boundOf query.skip }
  | .count query => {
    selection := .count "__odata_count".toList
    source := tablePath entity
    condition := query.filter.map (image entity) }
  | .byKey query keyValues => {
    selection := selectionOf query entity
    source := tablePath entity
    condition := Sql.conjuncts none ((keyConditions entity keyValues).map keyTree)
    limit := some 1 }

/-- SQL groups the filter as the syntax tree does. -/
def SeparatedFilter (query : ODataQuery) : Prop := ∀ filter ∈ query.filter, Separated filter

def SeparatedStatement : Statement → Prop
  | .collection query _ => SeparatedFilter query
  | .count query => SeparatedFilter query
  | .byKey _ _ => True

variable {query : ODataQuery} {entity : EdmEntity}

private theorem reads_columns (query : ODataQuery) (entity : EdmEntity) (rest : List Sql.Token) :
    Sql.readSelection (tokensOf (selectLexemes query entity) ++ .word "FROM".toList :: rest) =
      some (selectionOf query entity, .word "FROM".toList :: rest) := by
  unfold selectLexemes selectionOf
  split
  next => rfl
  next present =>
    have names : (selectedColumns query entity).map (·.name) ≠ [] := by simpa using present
    have stops : (Sql.Token.word "FROM".toList :: rest).head? ≠ some (.punct ',') := by simp
    have read := Sql.readSelection_columns names stops
    rw [columnLexemes, tokensOf_intercalate, List.map_map]
    rw [List.map_map] at read
    exact read

private theorem written_filter (types : WellFormedTypes entity) (separated : SeparatedFilter query) {text : Str}
    (done : compileFilterText query entity = .ok text) :
    Sql.Written "WHERE" Sql.readCondition (tokensOf (whereLexemes query entity)) (query.filter.map (image entity)) := by
  unfold compileFilterText at done
  unfold whereLexemes
  cases filter : query.filter with
  | none => exact .absent
  | some expr =>
    rw [filter] at done
    obtain ⟨take, reads⟩ := compile_reads types expr text done
    apply Sql.Written.present
    intro rest ends
    exact reads.condition (separated expr filter) ends

private theorem written_order (query : ODataQuery) :
    ∃ order, Sql.Written "ORDER" Sql.readOrder (tokensOf (orderLexemes query)) order ∧ order.getD [] = query.orderBy.map sortTerm := by
  unfold orderLexemes
  split
  next absent =>
    refine ⟨none, .absent, ?_⟩
    rw [absent]
    rfl
  next present =>
    have term : ∀ term, tokensOf (orderItemLexemes term) = (sortTerm term).tokens := by
      intro term
      unfold orderItemLexemes sortTerm Sql.SortTerm.tokens
      cases term.order with
      | asc => rfl
      | desc => rfl
    have whole : tokensOf (.keyword "ORDER".toList :: .keyword "BY".toList ::
        [.punctuation ','].intercalate (query.orderBy.map orderItemLexemes)) =
        .word "ORDER".toList :: .word "BY".toList ::
          [Sql.Token.punct ','].intercalate ((query.orderBy.map sortTerm).map Sql.SortTerm.tokens) := by
      simp [tokensOf_intercalate, Lexeme.tokens, Function.comp_def, term]
    rw [whole]
    refine ⟨some (query.orderBy.map sortTerm), .present ?_, rfl⟩
    intro rest ends
    have sorts : query.orderBy.map sortTerm ≠ [] := by simpa using present
    rw [List.cons_append, Sql.readOrder, Reading.expect_same]
    exact Sql.readList_sorts sorts (ends.not_punct ',')

private theorem written_bound (keyword : String) (n : Int) :
    Sql.Written keyword Sql.readBound (tokensOf (if 0 ≤ n then [.keyword keyword.toList, .integer n] else [])) (boundOf n) := by
  unfold boundOf
  split
  next positive =>
    have digits : (Lexeme.integer n).tokens = [.num (Nat.toDigits 10 n.toNat)] := by
      have same : n.natAbs = n.toNat := by omega
      simp [Lexeme.tokens, numberTokens, same, Int.not_lt.mpr positive]
    rw [tokensOf_cons, tokensOf_cons, digits]
    exact .bound keyword n.toNat
  next => exact .absent

private theorem tablePath_some (entity : EdmEntity) : tablePath entity ≠ [] := by
  unfold tablePath
  split
  next => exact List.cons_ne_nil _ _
  split
  next => exact List.cons_ne_nil _ _
  next => exact List.cons_ne_nil _ _

private theorem reads_key {condition : EdmProperty × Str} (type : WellFormedType condition.1.duckdbType) :
    ∃ take, Sql.Reads (tokensOf (conditionLexemes condition)) take (keyTree condition) True .comparison := by
  have literal : ∃ take, Sql.Reads (tokensOf (keyLiteralLexemes condition.1 condition.2)) take
      (if condition.1.edmType = .string ∨ condition.1.edmType = .guid ∨ condition.1.edmType = .binary then
        .string (unquoteKey condition.2)
      else .cast (.string (unquoteKey condition.2)) ((Sql.lex condition.1.duckdbType).getD [])) True .solid := by
    unfold keyLiteralLexemes
    split
    next => exact ⟨_, .str _⟩
    next => exact ⟨_, by simpa [castLexemes, Lexeme.tokens] using Sql.Reads.cast (unquoteKey condition.2) type.balanced⟩
  obtain ⟨take, reads⟩ := literal
  have compared := (Sql.Reads.ident condition.1.name).compare (show Sql.isComparison "=".toList by decide) reads
  exact ⟨_, by simpa [conditionLexemes, Lexeme.tokens, keyTree] using compared⟩

private theorem key_arguments {conditions : List (EdmProperty × Str)}
    (types : ∀ condition ∈ conditions, WellFormedType condition.1.duckdbType) :
    ∃ arguments : List Sql.Argument, arguments.map (·.tokens) = conditions.map (fun condition => tokensOf (conditionLexemes condition)) ∧
      arguments.map (·.tree) = conditions.map keyTree ∧ ∀ argument ∈ arguments, argument.separated := by
  induction conditions with
  | nil => exact ⟨[], rfl, rfl, nofun⟩
  | cons condition others ih =>
    obtain ⟨take, reads⟩ := reads_key (types condition List.mem_cons_self)
    obtain ⟨arguments, tokens, trees, separated⟩ := ih fun other member => types other (List.mem_cons_of_mem _ member)
    refine ⟨⟨_, take, _, _, _, reads⟩ :: arguments, ?_, ?_, ?_⟩
    · rw [List.map_cons, List.map_cons, tokens]
    · rw [List.map_cons, List.map_cons, trees]
    · intro argument member
      rcases List.mem_cons.mp member with rfl | later
      · trivial
      · exact separated argument later

private theorem written_key (types : WellFormedTypes entity) {keyValues : List Str} (present : keyConditions entity keyValues ≠ []) :
    Sql.Written "WHERE" Sql.readCondition
      (.word "WHERE".toList ::
        tokensOf ([.keyword "AND".toList].intercalate ((keyConditions entity keyValues).map conditionLexemes)))
      (Sql.conjuncts none ((keyConditions entity keyValues).map keyTree)) := by
  obtain ⟨arguments, tokens, trees, separated⟩ := key_arguments fun condition member =>
    types condition.1 (keyConditions_mem member)
  have some : arguments ≠ [] := by
    intro none
    rw [none, List.map_nil] at trees
    exact present (List.map_eq_nil_iff.mp trees.symm)
  have texts : tokensOf ([.keyword "AND".toList].intercalate ((keyConditions entity keyValues).map conditionLexemes)) =
      [Sql.Token.word "AND".toList].intercalate (arguments.map (·.tokens)) := by
    rw [tokens, tokensOf_intercalate, List.map_map]
    rfl
  obtain ⟨tree, joined, -⟩ := Sql.readCondition_conjuncts separated some .nil
  rw [texts, ← trees, joined]
  apply Sql.Written.present
  intro rest ends
  obtain ⟨other, same, read⟩ := Sql.readCondition_conjuncts separated some ends
  cases joined.symm.trans same
  exact read

private theorem keyConditions_some {keyValues : List Str} {compiled : CompiledQuery}
    (done : compileByKey query entity keyValues = .ok compiled) : keyConditions entity keyValues ≠ [] := by
  have same := (compileByKey_ok done).1
  intro none
  have short := congrArg List.length none
  rw [keyConditions, List.length_zip, List.length_nil, same, Nat.min_self] at short
  unfold compileByKey at done
  rw [if_pos (List.length_eq_zero_iff.mp short)] at done
  cases done

/-- The text of a statement is read back as the SELECT that the query asks for. -/
theorem statement_selects (types : WellFormedTypes entity) (statement : Statement) {compiled : CompiledQuery}
    (done : statement.compile entity = .ok compiled) (separated : SeparatedStatement statement) :
    Sql.readSelect compiled.sql = some (selectOf entity statement) := by
  have lexes := (Statement.lexes types done).lex
  unfold Sql.readSelect
  rw [lexes, Option.bind_some]
  have source := tablePath_some entity
  cases statement with
  | collection query maxTop =>
    obtain ⟨list, -, done⟩ := bind_ok done
    obtain ⟨condition, filtered, -⟩ := bind_ok done
    obtain ⟨order, sorts, same⟩ := written_order query
    have read := Sql.parseSelect_clauses (reads_columns query entity) source (written_filter types separated filtered) sorts
      (written_bound "LIMIT" (cappedTop query maxTop)) (written_bound "OFFSET" query.skip)
    rw [same] at read
    simpa [Statement.lexemes, Lexeme.tokens, limitLexemes, selectOf] using read
  | count query =>
    obtain ⟨condition, filtered, -⟩ := bind_ok done
    have counts : ∀ rest, Sql.readSelection (tokensOf [.countAll, .keyword "AS".toList, .keyword "__odata_count".toList] ++
        .word "FROM".toList :: rest) = some (.count "__odata_count".toList, .word "FROM".toList :: rest) := fun _ => rfl
    have read := Sql.parseSelect_clauses counts source (written_filter types separated filtered) .absent .absent .absent
    simpa [Statement.lexemes, Lexeme.tokens, selectOf] using read
  | byKey query keyValues =>
    have present := keyConditions_some done
    have read := Sql.parseSelect_clauses (reads_columns query entity) source (written_key types present) .absent (.bound "LIMIT" 1) .absent
    simpa [Statement.lexemes, Lexeme.tokens, numberTokens, selectOf] using read

end DuckdbOdata.SelectStatements
