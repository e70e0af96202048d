import DuckdbOdata.Metadata.EdmModel
import DuckdbOdata.Parser.Ast

/-! Compilation of a filter's syntax tree to SQL text
(`compiler/expression_compiler.cpp`). -/

namespace DuckdbOdata
open Text Binary64

structure FunctionMapEntry where
  odataName : Str
  duckdbName : Str
  minArgs : Nat
  maxArgs : Nat

def functionMap : List FunctionMapEntry :=
  [⟨"contains".toList, "contains".toList, 2, 2⟩, ⟨"startswith".toList, "starts_with".toList, 2, 2⟩,
    ⟨"endswith".toList, "ends_with".toList, 2, 2⟩, ⟨"tolower".toList, "lower".toList, 1, 1⟩,
    ⟨"toupper".toList, "upper".toList, 1, 1⟩, ⟨"length".toList, "length".toList, 1, 1⟩,
    ⟨"substring".toList, "substring".toList, 2, 3⟩, ⟨"concat".toList, "concat".toList, 2, 2⟩,
    ⟨"indexof".toList, "strpos".toList, 2, 2⟩, ⟨"trim".toList, "trim".toList, 1, 1⟩,
    ⟨"year".toList, "year".toList, 1, 1⟩, ⟨"month".toList, "month".toList, 1, 1⟩,
    ⟨"day".toList, "day".toList, 1, 1⟩, ⟨"hour".toList, "hour".toList, 1, 1⟩,
    ⟨"minute".toList, "minute".toList, 1, 1⟩, ⟨"second".toList, "second".toList, 1, 1⟩,
    ⟨"now".toList, "now".toList, 0, 0⟩, ⟨"round".toList, "round".toList, 2, 2⟩,
    ⟨"floor".toList, "floor".toList, 1, 1⟩, ⟨"ceiling".toList, "ceil".toList, 1, 1⟩,
    ⟨"abs".toList, "abs".toList, 1, 1⟩]

def isStringBase (lower : Str) : Bool :=
  oneOf lower ["varchar", "text", "string", "char", "bpchar", "uuid", "blob", "json", "bit", "bitstring"]

/-- `property_index`: of two properties with one lower-cased name the later wins. -/
def findProperty (entity : EdmEntity) (name : Str) : Option EdmProperty :=
  entity.properties.reverse.find? fun prop => sameName prop.name name

def resolveProperty (entity : EdmEntity) (name : Str) : Except Exn Str :=
  match findProperty entity name with
  | some prop => .ok (quoteIdentifier prop.name)
  | none =>
    .error (.odataParse ("property '".toList ++ name ++ "' does not exist on entity '".toList ++ entity.name ++ "'".toList))

def Expr.literal? : Expr → Option LiteralExpr
  | .literal value => some value
  | _ => none

/-- The type a literal is compared at, from the expression on the other side. -/
def resolveLiteralType (entity : EdmEntity) : Expr → Str
  | .property name =>
    match findProperty entity name with
    | some prop => if prop.edmType ≠ .unsupported then prop.duckdbType else []
    | none => []
  | .functionCall name _ =>
    if oneOf (toLower name) ["year", "month", "day", "hour", "minute", "second", "length", "indexof"] then "BIGINT".toList
    else if oneOf (toLower name) ["tolower", "toupper", "trim", "substring", "concat"] then "VARCHAR".toList
    else "BOOLEAN".toList
  | _ => []

/-- `std::to_string(double)` always prints a point, so no `.0` is appended. -/
def compileLiteral (target : Str) : LiteralExpr → Str
  | .null => "NULL".toList
  | .boolean value => if value then "TRUE".toList else "FALSE".toList
  | .integer value => intText value
  | .float value => value.fixed
  | .string value =>
    if baseTypeOf target = [] ∨ isStringBase (baseTypeOf target) then quoteStringLiteral value
    else "CAST(".toList ++ quoteStringLiteral value ++ " AS ".toList ++ target ++ ")".toList

def sqlOperator : BinaryOp → Str
  | .eq => "=".toList
  | .ne => "<>".toList
  | .gt => ">".toList
  | .ge => ">=".toList
  | .lt => "<".toList
  | .le => "<=".toList
  | .and => "AND".toList
  | .or => "OR".toList

/-- The SQL suffix of a comparison with `null`, for the two operators that have one. -/
def nullTest : BinaryOp → Option Str
  | .eq => some " IS NULL".toList
  | .ne => some " IS NOT NULL".toList
  | _ => none

/-- What a binary node becomes: a null test of the operand that is not the literal
`null`, a comparison with a literal typed by the other side, or neither. -/
inductive BinaryForm
  | testRight (test : Str)
  | testLeft (test : Str)
  | literalLeft (value : LiteralExpr)
  | literalRight (value : LiteralExpr)
  | general
deriving DecidableEq

def binaryForm (op : BinaryOp) (left right : Expr) : BinaryForm :=
  match nullTest op, left.literal?, right.literal? with
  | some test, some .null, none => .testRight test
  | some test, none, some .null => .testLeft test
  | _, some value, none => .literalLeft value
  | _, none, some value => .literalRight value
  | _, _, _ => .general

def joined (op : BinaryOp) (lhs rhs : Str) : Str :=
  let text := lhs ++ " ".toList ++ sqlOperator op ++ " ".toList ++ rhs
  if op = .and ∨ op = .or then "(".toList ++ text ++ ")".toList else text

def findFunction (name : Str) : Option FunctionMapEntry := functionMap.find? (toLower name = ·.odataName)

def unsupportedFunction (name : Str) : Exn :=
  .odataParse ("function '".toList ++ name ++ "' is not supported in $filter".toList)

def wrongArguments (name : Str) (entry : FunctionMapEntry) : Exn :=
  .odataParse ("function '".toList ++ name ++ "' expects ".toList ++ intText entry.minArgs ++ "..".toList ++
    intText entry.maxArgs ++ " arguments".toList)

mutual
def compile (entity : EdmEntity) : Expr → Except Exn Str
  | .property name => resolveProperty entity name
  | .literal value => .ok (compileLiteral [] value)
  | .unary .not child => do
    let inner ← compile entity child
    .ok ("(NOT ".toList ++ inner ++ ")".toList)
  | .binary op left right =>
    match binaryForm op left right with
    | .testRight test => do
      let rhs ← compile entity right
      .ok (rhs ++ test)
    | .testLeft test => do
      let lhs ← compile entity left
      .ok (lhs ++ test)
    | .literalLeft value => do
      let rhs ← compile entity right
      .ok (joined op (compileLiteral (resolveLiteralType entity right) value) rhs)
    | .literalRight value => do
      let lhs ← compile entity left
      .ok (joined op lhs (compileLiteral (resolveLiteralType entity left) value))
    | .general => do
      let lhs ← compile entity left
      let rhs ← compile entity right
      .ok (joined op lhs rhs)
  | .functionCall name args =>
    match findFunction name with
    | none => .error (unsupportedFunction name)
    | some entry =>
      if args.length < entry.minArgs ∨ entry.maxArgs < args.length then .error (wrongArguments name entry)
      else if toLower name = "now".toList then .ok "now()".toList
      else do
        let texts ← compileArgs entity args
        .ok (entry.duckdbName ++ "(".toList ++ ", ".toList.intercalate texts ++ ")".toList)

def compileArgs (entity : EdmEntity) : List Expr → Except Exn (List Str)
  | [] => .ok []
  | arg :: others => do
    let text ← compile entity arg
    let texts ← compileArgs entity others
    .ok (text :: texts)
end

end DuckdbOdata
