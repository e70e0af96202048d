import DuckdbOdata.Foundation.SqlPrecedence
import DuckdbOdata.Parser.ODataParser
import DuckdbOdata.Proofs.FilterPrinting
import DuckdbOdata.Proofs.SqlTokens

/-! Which filters keep their operator tree in SQL. The compiler puts parentheses
around AND, OR and NOT only, so a comparison or a null test below a comparison
can be taken apart by SQL's precedence. -/

namespace DuckdbOdata.Precedence
open Text Binary64 FilterGrammar SqlTokens

def literalTree (target : Str) : LiteralExpr → Sql.Tree
  | .null => .word "NULL".toList
  | .boolean value => .word (if value then "TRUE".toList else "FALSE".toList)
  | .integer value => .number (value < 0) (Nat.toDigits 10 value.natAbs)
  | .float value => .number value.negative value.unsigned
  | .string value =>
    if baseTypeOf target = [] ∨ isStringBase (baseTypeOf target) then .string value
    else .cast (.string value) ((Sql.lex target).getD [])

def nodeTree (op : BinaryOp) (left right : Sql.Tree) : Sql.Tree :=
  match op with
  | .and => .and left right
  | .or => .or left right
  | op => .compare (sqlOperator op) left right

mutual
/-- Every node with the images of its own children as operands. -/
def image (entity : EdmEntity) : Expr → Sql.Tree
  | .property name => .column (columnOf entity name)
  | .literal value => literalTree [] value
  | .unary .not child => .not (image entity child)
  | .binary op left right =>
    match binaryForm op left right with
    | .testRight _ => .nullTest (op = .ne) (image entity right)
    | .testLeft _ => .nullTest (op = .ne) (image entity left)
    | .literalLeft value => nodeTree op (literalTree (resolveLiteralType entity right) value) (image entity right)
    | .literalRight value => nodeTree op (image entity left) (literalTree (resolveLiteralType entity left) value)
    | .general => nodeTree op (image entity left) (image entity right)
  | .functionCall name args => .call (functionOf name) (images entity args)

def images (entity : EdmEntity) : List Expr → List Sql.Tree
  | [] => []
  | arg :: others => image entity arg :: images entity others
end

/-- How the compiled text of an expression ends. -/
def shapeOf : Expr → Sql.Shape
  | .binary op left right =>
    match binaryForm op left right with
    | .testRight _ | .testLeft _ => .test
    | _ => if comparing op then .comparison else .solid
  | _ => .solid

/-- The operands of a comparison that SQL leaves in place: no comparison on the
left, and neither a comparison nor a null test on the right. -/
def keepsOperands (op : BinaryOp) (left right : Expr) : Prop :=
  comparing op → shapeOf left ≠ .comparison ∧ shapeOf right = .solid

mutual
/-- Every comparison in the expression keeps its operands. -/
def Separated : Expr → Prop
  | .property _ => True
  | .literal _ => True
  | .unary _ child => Separated child
  | .binary op left right =>
    match binaryForm op left right with
    | .testRight _ => Separated right
    | .testLeft _ => Separated left
    | _ => keepsOperands op left right ∧ Separated left ∧ Separated right
  | .functionCall _ args => AllSeparated args

def AllSeparated : List Expr → Prop
  | [] => True
  | arg :: others => Separated arg ∧ AllSeparated others
end

theorem reads_literal {entity : EdmEntity} (types : WellFormedTypes entity) {target : Str}
    (typed : plainTarget target ∨ CastTarget entity target) (value : LiteralExpr) :
    ∃ take, Sql.Reads (tokensOf (literalLexemes target value)) take (literalTree target value) True .solid := by
  have number : ∀ negative digits, ∃ take,
      Sql.Reads (numberTokens negative digits) take (.number negative digits) True .solid := by
    intro negative digits
    cases negative with
    | true => exact ⟨_, .minus digits⟩
    | false => exact ⟨_, .num digits⟩
  cases value with
  | null => exact ⟨_, .constant (by decide)⟩
  | boolean value =>
    cases value with
    | true => exact ⟨_, .constant (by decide)⟩
    | false => exact ⟨_, .constant (by decide)⟩
  | integer value => simpa [literalLexemes, literalTree, Lexeme.tokens] using number (value < 0) (Nat.toDigits 10 value.natAbs)
  | float value => simpa [literalLexemes, literalTree, Lexeme.tokens] using number value.negative value.unsigned
  | string value =>
    simp only [literalLexemes, literalTree]
    by_cases plain : baseTypeOf target = [] ∨ isStringBase (baseTypeOf target) = true
    · rw [if_pos plain, if_pos plain]
      exact ⟨_, .str value⟩
    · rw [if_neg plain, if_neg plain]
      have balanced := ((typed.resolve_left plain).wellFormed types).balanced
      exact ⟨_, by simpa [castLexemes, Lexeme.tokens] using Sql.Reads.cast value balanced⟩

/-- A binary node from the readings of its operands. -/
theorem reads_node (op : BinaryOp) {first last : List Lexeme} {takeFirst takeLast : Sql.Slot → Option (Sql.Tree × Bool)}
    {left right : Sql.Tree} {separatedFirst separatedLast : Prop} {shapeFirst shapeLast : Sql.Shape}
    (before : Sql.Reads (tokensOf first) takeFirst left separatedFirst shapeFirst)
    (after : Sql.Reads (tokensOf last) takeLast right separatedLast shapeLast) :
    ∃ take, Sql.Reads (tokensOf (joinedLexemes op first last)) take (nodeTree op left right)
      ((comparing op → shapeFirst ≠ .comparison ∧ shapeLast = .solid) ∧ separatedFirst ∧ separatedLast)
      (if comparing op then .comparison else .solid) := by
  cases op with
  | and => exact ⟨_, by simpa [joinedLexemes, operatorLexeme, Lexeme.tokens, nodeTree, comparing] using before.and after⟩
  | or => exact ⟨_, by simpa [joinedLexemes, operatorLexeme, Lexeme.tokens, nodeTree, comparing] using before.or after⟩
  | _ =>
    exact ⟨_, by simpa [joinedLexemes, operatorLexeme, Lexeme.tokens, nodeTree, comparing, and_assoc] using
      before.compare (by decide) after⟩

theorem reads_test {op : BinaryOp} {test : Str} (tests : nullTest op = some test) {lexemes : List Lexeme}
    {take : Sql.Slot → Option (Sql.Tree × Bool)} {tree : Sql.Tree} {separated : Prop} {shape : Sql.Shape}
    (operand : Sql.Reads (tokensOf lexemes) take tree separated shape) :
    ∃ take, Sql.Reads (tokensOf (lexemes ++ nullTestLexemes op)) take (.nullTest (op = .ne) tree) separated .test := by
  cases op with
  | eq => exact ⟨_, by simpa [nullTestLexemes, Lexeme.tokens] using operand.isNull⟩
  | ne => exact ⟨_, by simpa [nullTestLexemes, Lexeme.tokens] using operand.isNotNull⟩
  | _ => cases tests

theorem tokensOf_args (entity : EdmEntity) (args : List Expr) :
    tokensOf (argLexemes entity args) =
      [Sql.Token.punct ','].intercalate (args.map fun arg => tokensOf (exprLexemes entity arg)) := by
  induction args with
  | nil => rfl
  | cons arg others ih =>
    cases others with
    | nil => simp [argLexemes, List.intercalate]
    | cons next others => simp [argLexemes, ih, Lexeme.tokens, List.intercalate]

private theorem reads_args (entity : EdmEntity) (args : List Expr)
    (each : ∀ arg ∈ args, ∃ take, Sql.Reads (tokensOf (exprLexemes entity arg)) take (image entity arg) (Separated arg) (shapeOf arg)) :
    ∃ arguments : List Sql.Argument, arguments.map (·.tokens) = args.map (fun arg => tokensOf (exprLexemes entity arg)) ∧
      arguments.map (·.tree) = images entity args ∧ ((∀ argument ∈ arguments, argument.separated) ↔ AllSeparated args) := by
  induction args with
  | nil => exact ⟨[], rfl, rfl, by simp [AllSeparated]⟩
  | cons arg others ih =>
    obtain ⟨take, reads⟩ := each arg (by simp)
    obtain ⟨arguments, tokens, trees, separated⟩ := ih fun other member => each other (List.mem_cons_of_mem _ member)
    refine ⟨⟨_, take, _, _, _, reads⟩ :: arguments, by simp [tokens], by simp [images, trees], ?_⟩
    simp [AllSeparated, separated]

theorem functionMap_functions : ∀ entry ∈ functionMap, Sql.isFunction entry.duckdbName = true := by decide

private theorem reads_binary {entity : EdmEntity} (types : WellFormedTypes entity) (op : BinaryOp) {left right : Expr}
    {takeLeft takeRight : Sql.Slot → Option (Sql.Tree × Bool)}
    (first : Sql.Reads (tokensOf (exprLexemes entity left)) takeLeft (image entity left) (Separated left) (shapeOf left))
    (last : Sql.Reads (tokensOf (exprLexemes entity right)) takeRight (image entity right) (Separated right) (shapeOf right)) :
    ∃ take, Sql.Reads (tokensOf (exprLexemes entity (.binary op left right))) take (image entity (.binary op left right))
      (Separated (.binary op left right)) (shapeOf (.binary op left right)) := by
  have typed := fun other => reads_literal types (resolveLiteralType_cases entity other)
  rw [exprLexemes, image, Separated, shapeOf, keepsOperands]
  cases form : binaryForm op left right with
  | testRight test => exact reads_test (binaryForm_test (.inl form)) last
  | testLeft test => exact reads_test (binaryForm_test (.inr form)) first
  | literalLeft value =>
    obtain ⟨take, literal⟩ := typed right value
    cases binaryForm_left form
    exact reads_node op literal last
  | literalRight value =>
    obtain ⟨take, literal⟩ := typed left value
    cases binaryForm_right form
    exact reads_node op first literal
  | general => exact reads_node op first last

/-- The parser makes the image of an expression of its tokens exactly when every
comparison keeps its operands. -/
theorem compile_reads {entity : EdmEntity} (types : WellFormedTypes entity) (expr : Expr) (text : Str)
    (done : compile entity expr = .ok text) :
    ∃ take, Sql.Reads (tokensOf (exprLexemes entity expr)) take (image entity expr) (Separated expr) (shapeOf expr) := by
  refine compile_induct (fun name prop found => ⟨_, .ident _⟩) ?_ ?_ ?_ ?_ expr text done
  · exact fun value => reads_literal types (.inl (.inl rfl)) value
  · intro child inner
    obtain ⟨take, reads⟩ := inner
    exact ⟨_, by simpa [exprLexemes, Lexeme.tokens, image, Separated, shapeOf] using reads.not⟩
  · intro op left right first last
    obtain ⟨takeLeft, before⟩ := first
    obtain ⟨takeRight, after⟩ := last
    exact reads_binary types op before after
  · intro name args entry found inner
    simp only [exprLexemes, image, Separated, shapeOf, functionOf, found]
    obtain ⟨arguments, tokens, trees, separated⟩ := reads_args entity args inner
    have reads := Sql.Reads.call (functionMap_functions entry (findFunction_mem found).1) arguments
    rw [tokens, trees, ← tokensOf_args, propext separated] at reads
    exact ⟨_, by simpa [Lexeme.tokens] using reads⟩

/-- The SQL text of a filter, parsed. -/
def parseSql (text : Str) : Option Sql.Tree := (Sql.lex text).bind Sql.parse

/-- Compiled SQL parses to the operator tree of the syntax tree exactly when
every comparison keeps its operands. -/
theorem compile_image (entity : EdmEntity) (types : WellFormedTypes entity) (expr : Expr) (text : Str)
    (done : compile entity expr = .ok text) : parseSql text = some (image entity expr) ↔ Separated expr := by
  obtain ⟨take, reads⟩ := compile_reads types expr text done
  rw [parseSql, (compile_lexes types expr text done).lex, Option.bind_some]
  exact reads.parse

private def flags : EdmEntity :=
  { schema := "main".toList, name := "flags".toList, properties := [{ name := "a".toList, duckdbType := "BIGINT".toList }] }

/-- `a eq 1 and not (a eq null)` -/
private def equalNotNull : Expr :=
  .binary .and (.binary .eq (.property "a".toList) (.literal (.integer 1)))
    (.unary .not (.binary .eq (.property "a".toList) (.literal .null)))

theorem compile_image_flags :
    WellFormedTypes flags ∧ compile flags equalNotNull = .ok "(\"a\" = 1 AND (NOT \"a\" IS NULL))".toList ∧
      parseSql "(\"a\" = 1 AND (NOT \"a\" IS NULL))".toList = some (image flags equalNotNull) := by
  have types : WellFormedTypes flags := by
    intro prop member
    cases List.mem_singleton.mp member
    exact .bigint
  have compiled : compile flags equalNotNull = .ok "(\"a\" = 1 AND (NOT \"a\" IS NULL))".toList := rfl
  have equal : keepsOperands .eq (.property "a".toList) (.literal (.integer 1)) := fun _ => ⟨nofun, rfl⟩
  exact ⟨types, compiled, (compile_image flags types equalNotNull _ compiled).mpr ⟨nofun, ⟨equal, trivial, trivial⟩, trivial⟩⟩

/-- `true eq (a eq null)` compares with the null test in OData and tests the
comparison in SQL. -/
theorem compile_image_nested :
    ∃ expr text, parseFilter "true eq (a eq null)".toList = .ok expr ∧ compile flags expr = .ok text ∧
      text = "TRUE = \"a\" IS NULL".toList ∧ parseSql text ≠ some (image flags expr) := by
  let expr : Expr := .binary .eq (.literal (.boolean true)) (.binary .eq (.property "a".toList) (.literal .null))
  have tokens : tokenize "true eq (a eq null)".toList = .ok (print expr ++ [{ type := .end }]) := rfl
  have parsed : parseFilter "true eq (a eq null)".toList = .ok expr := by
    rw [parseFilter, tokens, ok_bind]
    exact parse_print expr rfl
  have read : parseSql "TRUE = \"a\" IS NULL".toList =
      some (.nullTest false (.compare "=".toList (.word "TRUE".toList) (.column "a".toList))) := rfl
  have wanted : image flags expr =
      .compare "=".toList (.word "TRUE".toList) (.nullTest false (.column "a".toList)) := rfl
  refine ⟨expr, "TRUE = \"a\" IS NULL".toList, parsed, rfl, rfl, ?_⟩
  rw [wanted, read]
  nofun

end DuckdbOdata.Precedence
