import DuckdbOdata.Common.StringUtil
import DuckdbOdata.Foundation.Binary64

/-! The expression tree of a `$filter` and the normalized query
(`parser/ast.hpp`). A literal carries the one payload its kind populates. -/

namespace DuckdbOdata
open Text Binary64

inductive BinaryOp
  | eq | ne | gt | ge | lt | le | and | or
deriving DecidableEq, Repr

inductive UnaryOp
  | not
deriving DecidableEq, Repr

inductive LiteralExpr
  | integer (value : Int)
  | float (value : Double)
  | string (value : Str)
  | boolean (value : Bool)
  | null
deriving DecidableEq

inductive Expr
  | property (name : Str)
  | literal (value : LiteralExpr)
  | binary (op : BinaryOp) (left right : Expr)
  | unary (op : UnaryOp) (child : Expr)
  | functionCall (name : Str) (args : List Expr)

/-- Induction with a hypothesis for every argument of a call. -/
@[elab_as_elim, induction_eliminator]
theorem Expr.induct {motive : Expr → Prop}
    (property : ∀ name, motive (.property name))
    (literal : ∀ value, motive (.literal value))
    (binary : ∀ op left right, motive left → motive right → motive (.binary op left right))
    (unary : ∀ op child, motive child → motive (.unary op child))
    (functionCall : ∀ name args, (∀ arg ∈ args, motive arg) → motive (.functionCall name args))
    (expr : Expr) : motive expr :=
  Expr.rec (motive_1 := motive) (motive_2 := fun args => ∀ arg ∈ args, motive arg)
    property literal binary unary functionCall
    (fun _ member => absurd member List.not_mem_nil)
    (fun _ _ first others arg member => by
      rcases List.mem_cons.mp member with rfl | later
      · exact first
      · exact others arg later)
    expr

inductive SortOrder
  | asc | desc
deriving DecidableEq, Repr

structure OrderByTerm where
  property : Str
  order : SortOrder := .asc

/-- `top` and `skip` are -1 when the option is absent. -/
structure ODataQuery where
  entitySet : Str := []
  select : List Str := []
  filter : Option Expr := none
  orderBy : List OrderByTerm := []
  top : Int := -1
  skip : Int := -1
  count : Bool := false

end DuckdbOdata
