import DuckdbOdata.Execution.Database
import DuckdbOdata.Foundation.Interleaving
import DuckdbOdata.Foundation.SqlChange

/-! The tables of a database under any number of connections. A transaction sees the
tables as they were when it began, with its own changes; the others see them when it
commits. What a failed call leaves of a transaction is not said, but it changes no
table, and nothing at all is said of statements that are not of these forms. -/

namespace DuckdbOdata
open Text

/-- A transaction that is open with the tables it began with and its changes, the
prepared statement, and the rows of its result that have not been fetched. -/
structure DbConnection (Record : Type) where
  transaction : Option (Sql.Tables Record × List (List Str × Sql.RowChange Record)) := none
  prepared : Str := []
  pending : List Row := []

/-- One statement that is a SELECT. -/
def isSelect (sql : Str) : Prop := ∃ tokens, Sql.lex sql = some (.word "SELECT".toList :: tokens) ∧ .punct ';' ∉ tokens

namespace DbConnection

variable {Record : Type}

/-- A query that succeeds: the changes that it commits, and the connection after it. -/
def queries (sql : Str) (tables : Sql.Tables Record) (before : DbConnection Record) (effects : List (List Str × Sql.RowChange Record))
    (after : DbConnection Record) : Prop :=
  if sql = "BEGIN TRANSACTION".toList then
    before.transaction = none ∧ effects = [] ∧ after = { before with transaction := some (tables, []) }
  else if sql = "COMMIT".toList then
    ∃ began, before.transaction = some (began, effects) ∧ after = { before with transaction := none }
  else if sql = "ROLLBACK".toList then effects = [] ∧ after = { before with transaction := none }
  else isSelect sql → effects = [] ∧ after = before

/-- The prepared statement has run with these values. Outside of a transaction its
changes are committed at once. -/
def executes (changer : Sql.Changer Record Value Row) (values : List Value) (tables : Sql.Tables Record) (before : DbConnection Record)
    (effects : List (List Str × Sql.RowChange Record)) (after : DbConnection Record) : Prop :=
  ∀ statement, Sql.readPrepared before.prepared values = some statement →
    ∃ changes, after.prepared = before.prepared ∧
      match before.transaction with
      | some (began, earlier) => ∃ seen, Run Sql.Alters began earlier seen ∧
          statement.Performs changer (seen statement.target) changes after.pending ∧ effects = [] ∧
          after.transaction = some (began, earlier ++ changes.map fun change => (statement.target, change))
      | none => statement.Performs changer (tables statement.target) changes after.pending ∧
          effects = changes.map (fun change => (statement.target, change)) ∧ after.transaction = none

/-- A chunk of the rows that are left; an empty chunk or none at all says that no row
is left. -/
def fetches (chunk : Option (List Row)) (before after : DbConnection Record) : Prop :=
  before.pending = chunk.getD [] ++ after.pending ∧ (chunk.getD [] = [] → before.pending = []) ∧
    after = { before with pending := after.pending }

/-- What a call commits, and the connection after it. -/
def call (changer : Sql.Changer Record Value Row) (tables : Sql.Tables Record) (before : DbConnection Record) :
    (call : DbCall) → call.Answer → List (List Str × Sql.RowChange Record) → DbConnection Record → Prop
  | .query sql, .ok (.ok _), effects, after => queries sql tables before effects after
  | .query _, _, effects, _ => effects = []
  | .prepare sql, .ok none, effects, after => effects = [] ∧ after = { before with prepared := sql }
  | .prepare _, _, effects, _ => effects = []
  | .execute values, .ok (.ok _), effects, after => executes changer values tables before effects after
  | .execute _, _, effects, _ => effects = []
  | .fetch, .ok chunk, effects, after => effects = [] ∧ fetches chunk before after
  | .fetch, .error _, effects, _ => effects = []

end DbConnection

end DuckdbOdata
