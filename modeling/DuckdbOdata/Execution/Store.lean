import DuckdbOdata.Execution.Database

/-! A table under transactions, as one connection sees it. Every call may fail;
what a failed call leaves of an open transaction is not said, but it never
reaches the table. -/

namespace DuckdbOdata
open Text

inductive Dml
  | insert | update | delete
deriving DecidableEq, Repr

/-- What a statement of the write path does, by its first words. -/
def dmlOf (sql : Str) : Option Dml :=
  if "INSERT INTO ".toList.isPrefixOf sql then some .insert
  else if "UPDATE ".toList.isPrefixOf sql then some .update
  else if "DELETE FROM ".toList.isPrefixOf sql then some .delete
  else none

/-- The rows before and after a statement that affects `count` rows; their order
does not matter. -/
def Affects (dml : Dml) (count : Nat) (before after : List Row) : Prop :=
  match dml with
  | .insert => ∃ added : List Row, added.length = count ∧ after.Perm (added ++ before)
  | .update => ∃ old new rest : List Row, old.length = count ∧ new.length = count ∧
      before.Perm (old ++ rest) ∧ after.Perm (new ++ rest)
  | .delete => ∃ gone : List Row, gone.length = count ∧ before.Perm (gone ++ after)

/-- The committed rows, the rows inside an open transaction, the prepared
statement, and the rows of its result that have not been fetched. -/
structure Store where
  table : List Row := []
  working : Option (List Row) := none
  prepared : Str := []
  pending : List Row := []

namespace Store

/-- A successful `BEGIN TRANSACTION`, `COMMIT` or `ROLLBACK`. -/
def controls (sql : Str) (before after : Store) : Prop :=
  if sql = "BEGIN TRANSACTION".toList then before.working = none ∧ after = { before with working := some before.table }
  else if sql = "COMMIT".toList then
    ∃ rows, before.working = some rows ∧ after = { before with table := rows, working := none }
  else if sql = "ROLLBACK".toList then after = { before with working := none }
  else False

/-- The prepared statement has run: inside a transaction it changes the rows
seen there, and it returns one row for each row affected. -/
def executes (before after : Store) : Prop :=
  ∃ dml rows returned, dmlOf before.prepared = some dml ∧
    Affects dml returned.length (before.working.getD before.table) rows ∧
    after = match before.working with
      | some _ => { before with working := some rows, pending := returned }
      | none => { before with table := rows, pending := returned }

/-- A chunk of the rows that are left; an empty chunk or none at all says that
no row is left. -/
def fetches (chunk : Option (List Row)) (before after : Store) : Prop :=
  before.pending = chunk.getD [] ++ after.pending ∧ (chunk.getD [] = [] → before.pending = []) ∧
    after = { before with pending := after.pending }

def step (before : Store) : (call : DbCall) → call.Answer → Store → Prop
  | .query sql, .ok (.ok _), after => controls sql before after
  | .query _, _, after => after.table = before.table
  | .prepare sql, .ok none, after => after = { before with prepared := sql }
  | .prepare _, _, after => after.table = before.table
  | .execute _, .ok (.ok _), after => executes before after
  | .execute _, _, after => after.table = before.table
  | .fetch, .ok chunk, after => fetches chunk before after
  | .fetch, .error _, after => after.table = before.table

end Store

end DuckdbOdata
