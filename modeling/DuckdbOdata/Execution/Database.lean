import DuckdbOdata.Common.StringUtil
import DuckdbOdata.Foundation.Binary64
import DuckdbOdata.Foundation.Program

/-! The database as the extension sees it: values, result sets, and the calls of
a connection with everything they can answer. -/

namespace DuckdbOdata
open Text Binary64

/-- A scalar value, by the branch of `ValueToJson` its type takes. `shown` is the
text of `Value::ToString`; a float that is not finite has no `value`. -/
inductive Value
  | null
  | boolean (value : Bool)
  | integer (value : Int)
  | float (value : Option Double) (shown : Str)
  | numeric (shown : Str)
  | text (shown : Str)
  | blob (bytes shown : Str)
  | other (shown : Str)
deriving DecidableEq

def Value.toText : Value → Str
  | .null => "NULL".toList
  | .boolean value => if value then "true".toList else "false".toList
  | .integer value => intText value
  | .float _ shown | .numeric shown | .text shown | .blob _ shown | .other shown => shown

abbrev Row := List Value

/-- Named columns and the chunks that `Fetch` returns one after the other. -/
structure ResultSet where
  names : List Str
  chunks : List (List Row)
  shaped : ∀ chunk ∈ chunks, ∀ row ∈ chunk, row.length = names.length

def ResultSet.rows (result : ResultSet) : List Row := result.chunks.flatten

/-- `ErrorData`; `conflict` says that its type is CONSTRAINT or TRANSACTION. -/
structure DbError where
  conflict : Bool := false
  message : Str
deriving DecidableEq

inductive DbCall
  | query (sql : Str)
  | prepare (sql : Str)
  | execute (parameters : List Value)
  | fetch
deriving DecidableEq

/-- Every call may also throw; the outer error is the exception's text. -/
def DbCall.Answer : DbCall → Type
  | .query _ => Except Str (Except DbError ResultSet)
  | .prepare _ => Except Str (Option Str)
  | .execute _ => Except Str (Except DbError Unit)
  | .fetch => Except Str (Option (List Row))

abbrev DbProgram := Program DbCall DbCall.Answer

namespace DbProgram

def query (sql : Str) : DbProgram (Except Str (Except DbError ResultSet)) := Program.perform (DbCall.query sql)

def prepare (sql : Str) : DbProgram (Except Str (Option Str)) := Program.perform (DbCall.prepare sql)

def execute (parameters : List Value) : DbProgram (Except Str (Except DbError Unit)) := Program.perform (DbCall.execute parameters)

def fetch : DbProgram (Except Str (Option (List Row))) := Program.perform DbCall.fetch

end DbProgram

end DuckdbOdata
