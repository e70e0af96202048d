import DuckdbOdata.Foundation.SqlGrammar

/-! The meaning of SQL operator trees on a row, in three-valued logic: a null
operand makes a comparison unknown, and a null test is never unknown. -/

namespace Sql
open Text

/-- A value that is not null. -/
inductive Datum (α : Type)
  | truth (value : Bool)
  | other (value : α)
deriving DecidableEq

/-- How a database reads constants, casts, calls functions and compares. `holds`
is the truth of a value that is no Boolean. -/
structure Values (α : Type) where
  number : Bool → Str → Datum α
  string : Str → Datum α
  cast : Datum α → List Token → Datum α
  call : Str → List (Option (Datum α)) → Option (Datum α)
  equal : Datum α → Datum α → Bool
  less : Datum α → Datum α → Bool
  holds : α → Bool

def negation (value : Option Bool) : Option Bool := value.map (!·)

def conjunction : Option Bool → Option Bool → Option Bool
  | some false, _ | _, some false => some false
  | some true, some true => some true
  | _, _ => none

def disjunction : Option Bool → Option Bool → Option Bool
  | some true, _ | _, some true => some true
  | some false, some false => some false
  | _, _ => none

variable {α : Type} (values : Values α)

/-- A null is an unknown truth. -/
def Values.truth : Option (Datum α) → Option Bool
  | none => none
  | some (.truth value) => some value
  | some (.other value) => some (values.holds value)

def Values.related (symbol : Str) (first last : Datum α) : Bool :=
  if symbol = "=".toList then values.equal first last
  else if symbol = "<>".toList then !values.equal first last
  else if symbol = "<".toList then values.less first last
  else if symbol = ">".toList then values.less last first
  else if symbol = "<=".toList then !values.less last first
  else !values.less first last

mutual
/-- The value of a tree on a row; `none` is NULL. -/
def eval (row : Str → Option (Datum α)) : Tree → Option (Datum α)
  | .column name => row name
  | .string value => some (values.string value)
  | .number negative digits => some (values.number negative digits)
  | .word name => if name = "TRUE".toList then some (.truth true) else if name = "FALSE".toList then some (.truth false) else none
  | .cast operand type => (eval row operand).map fun value => values.cast value type
  | .call name args => values.call name (evalAll row args)
  | .compare symbol left right =>
    match eval row left, eval row right with
    | some first, some last => some (.truth (values.related symbol first last))
    | _, _ => none
  | .nullTest negated operand => some (.truth ((eval row operand).isNone != negated))
  | .not operand => (negation (values.truth (eval row operand))).map .truth
  | .and left right => (conjunction (values.truth (eval row left)) (values.truth (eval row right))).map .truth
  | .or left right => (disjunction (values.truth (eval row left)) (values.truth (eval row right))).map .truth

def evalAll (row : Str → Option (Datum α)) : List Tree → List (Option (Datum α))
  | [] => []
  | arg :: others => eval row arg :: evalAll row others
end

/-- A `WHERE` condition keeps the rows on which it is true. -/
def Keeps (row : Str → Option (Datum α)) (condition : Tree) : Prop := values.truth (eval values row condition) = some true

end Sql
