import DuckdbOdata.Foundation.SqlLogic
import DuckdbOdata.Proofs.Precedence

/-! Which rows a filter selects when properties are null. A comparison with the
literal `null` becomes a null test; every other comparison is SQL's, unknown
when an operand is null. -/

namespace DuckdbOdata.NullSemantics
open Text Sql FilterGrammar SqlTokens Precedence

variable {α : Type} (values : Values α)

/-- Filters of properties, literals, `eq`, `ne`, `and`, `or` and `not`. -/
def Basic : Expr → Prop
  | .property _ => True
  | .literal _ => True
  | .unary .not child => Basic child
  | .binary op left right => (op = .eq ∨ op = .ne ∨ op = .and ∨ op = .or) ∧ Basic left ∧ Basic right
  | .functionCall _ _ => False

/-- OData's equality: null equals null and nothing else. -/
def nullSafeEqual : Option (Datum α) → Option (Datum α) → Bool
  | none, none => true
  | some first, some last => values.equal first last
  | _, _ => false

/-- SQL's equality: unknown as soon as an operand is null. -/
def sqlEqual : Option (Datum α) → Option (Datum α) → Option Bool
  | some first, some last => some (values.equal first last)
  | _, _ => none

/-- One operand is the literal `null` and the other one is no literal. -/
def NullTested (left right : Expr) : Prop :=
  (left.literal? = some .null ∧ right.literal? = none) ∨ (left.literal? = none ∧ right.literal? = some .null)

instance (left right : Expr) : Decidable (NullTested left right) := by unfold NullTested; infer_instance

/-- A literal as the database reads it at a type. -/
def literalValue (target : Str) : LiteralExpr → Option (Datum α)
  | .null => none
  | .boolean value => some (.truth value)
  | .integer value => some (values.number (value < 0) (Nat.toDigits 10 value.natAbs))
  | .float value => some (values.number value.negative value.unsigned)
  | .string value =>
    if baseTypeOf target = [] ∨ isStringBase (baseTypeOf target) then some (values.string value)
    else some (values.cast (values.string value) ((Sql.lex target).getD []))

/-- A literal is read at the type of the other operand, if that is no literal. -/
def operand (entity : EdmEntity) (value : Option (Datum α)) (expr other : Expr) : Option (Datum α) :=
  match expr.literal?, other.literal? with
  | some literal, none => literalValue values (resolveLiteralType entity other) literal
  | _, _ => value

/-- A node from its operands and from whether they are equal; `ne` is the
negation of `eq`, and the connectives are three-valued. -/
def combine (op : BinaryOp) (equal : Option Bool) (first last : Option (Datum α)) : Option (Datum α) :=
  match op with
  | .eq => equal.map .truth
  | .ne => (negation equal).map .truth
  | .and => (conjunction (values.truth first) (values.truth last)).map .truth
  | .or => (disjunction (values.truth first) (values.truth last)).map .truth
  | _ => none

/-- A filter on a row, over an equality of operands. -/
def evaluate (equality : Expr → Expr → Option (Datum α) → Option (Datum α) → Option Bool) (entity : EdmEntity)
    (row : Str → Option (Datum α)) : Expr → Option (Datum α)
  | .property name => row (columnOf entity name)
  | .literal value => literalValue values [] value
  | .unary .not child => (negation (values.truth (evaluate equality entity row child))).map .truth
  | .binary op left right =>
    let first := operand values entity (evaluate equality entity row left) left right
    let last := operand values entity (evaluate equality entity row right) right left
    combine values op (equality left right first last) first last
  | .functionCall _ _ => none

/-- OData's evaluation: `eq` is two-valued. -/
def odata : EdmEntity → (Str → Option (Datum α)) → Expr → Option (Datum α) :=
  evaluate values fun _ _ first last => some (nullSafeEqual values first last)

/-- The evaluation the compiler chooses: only a comparison with the literal
`null` is two-valued. -/
def literalNulls : EdmEntity → (Str → Option (Datum α)) → Expr → Option (Datum α) :=
  evaluate values fun left right first last =>
    if NullTested left right then some (nullSafeEqual values first last) else sqlEqual values first last

/-- On this row no operand of a comparison is null, those with the literal
`null` apart. -/
def Definite (entity : EdmEntity) (row : Str → Option (Datum α)) : Expr → Prop
  | .property _ => True
  | .literal _ => True
  | .unary _ child => Definite entity row child
  | .binary op left right =>
    Definite entity row left ∧ Definite entity row right ∧
      (comparing op → ¬NullTested left right →
        operand values entity (odata values entity row left) left right ≠ none ∧
          operand values entity (odata values entity row right) right left ≠ none)
  | .functionCall _ _ => True

/-- The rows on which a filter is true. -/
def Selects (value : Option (Datum α)) : Prop := values.truth value = some true

theorem eval_literal (row : Str → Option (Datum α)) (target : Str) (literal : LiteralExpr) :
    eval values row (literalTree target literal) = literalValue values target literal := by
  cases literal with
  | null => rfl
  | boolean value => cases value <;> rfl
  | integer value => rfl
  | float value => rfl
  | string value =>
    rw [literalTree, literalValue]
    split
    · rfl
    · rfl

/-- What the compiler makes of an operand. -/
def operandTree (entity : EdmEntity) (expr other : Expr) : Tree :=
  match expr.literal?, other.literal? with
  | some literal, none => literalTree (resolveLiteralType entity other) literal
  | _, _ => image entity expr

/-- `eq` and `ne` with the literal `null` are a null test of the other operand. -/
theorem image_tested {op : BinaryOp} {left right : Expr} (entity : EdmEntity) (compares : op = .eq ∨ op = .ne)
    (tested : NullTested left right) :
    image entity (.binary op left right) =
      .nullTest (op = .ne) (image entity (if left.literal? = none then left else right)) := by
  obtain ⟨text, test⟩ : ∃ text, nullTest op = some text := by
    rcases compares with rfl | rfl
    · exact ⟨_, rfl⟩
    · exact ⟨_, rfl⟩
  rw [image]
  rcases tested with ⟨first, last⟩ | ⟨first, last⟩
  · simp only [binaryForm, test, first, last, reduceCtorEq, if_false]
  · simp only [binaryForm, test, first, last, if_true]

/-- Every other node keeps its operator. -/
theorem image_untested {op : BinaryOp} {left right : Expr} (entity : EdmEntity)
    (untested : nullTest op = none ∨ ¬NullTested left right) :
    image entity (.binary op left right) = nodeTree op (operandTree entity left right) (operandTree entity right left) := by
  rw [image, operandTree, operandTree, binaryForm]
  cases first : left.literal? with
  | none =>
    cases last : right.literal? with
    | none => cases nullTest op <;> rfl
    | some literal =>
      rcases untested with absent | untested
      · rw [absent]
      · cases literal with
        | null => exact absurd (.inr ⟨first, last⟩) untested
        | _ => cases nullTest op <;> rfl
  | some literal =>
    cases last : right.literal? with
    | none =>
      rcases untested with absent | untested
      · rw [absent]
      · cases literal with
        | null => exact absurd (.inl ⟨first, last⟩) untested
        | _ => cases nullTest op <;> rfl
    | some other => cases literal <;> cases nullTest op <;> rfl

theorem eval_operandTree (entity : EdmEntity) (row : Str → Option (Datum α)) (expr other : Expr) {value : Option (Datum α)}
    (evaluated : eval values row (image entity expr) = value) :
    eval values row (operandTree entity expr other) = operand values entity value expr other := by
  rw [operandTree, operand]
  split
  · exact eval_literal values row _ _
  · exact evaluated

/-- A null test is the null-safe equality with null, or its negation. -/
theorem nullSafe_test (value : Option (Datum α)) :
    nullSafeEqual values none value = value.isNone ∧ nullSafeEqual values value none = value.isNone := by
  cases value with
  | none => exact ⟨rfl, rfl⟩
  | some value => exact ⟨rfl, rfl⟩

theorem eval_tested {entity : EdmEntity} {row : Str → Option (Datum α)} {op : BinaryOp} {left right : Expr}
    (compares : op = .eq ∨ op = .ne) (tested : NullTested left right) {first last : Option (Datum α)}
    (leftValue : eval values row (image entity left) = first) (rightValue : eval values row (image entity right) = last) :
    eval values row (image entity (.binary op left right)) =
      combine values op (some (nullSafeEqual values (operand values entity first left right) (operand values entity last right left)))
        (operand values entity first left right) (operand values entity last right left) := by
  rw [image_tested entity compares tested, eval]
  have isNull := nullSafe_test values
  rcases tested with ⟨null, other⟩ | ⟨other, null⟩
  · simp only [operand, null, other, literalValue, reduceCtorEq, if_false, rightValue, (isNull last).1]
    rcases compares with rfl | rfl
    · simp [combine]
    · simp [combine, negation]
  · simp only [operand, null, other, literalValue, if_true, leftValue, (isNull first).2]
    rcases compares with rfl | rfl
    · simp [combine]
    · simp [combine, negation]

private theorem eval_untested {entity : EdmEntity} {row : Str → Option (Datum α)} {op : BinaryOp} {left right : Expr}
    (compares : op = .eq ∨ op = .ne) (untested : ¬NullTested left right) {first last : Option (Datum α)}
    (leftValue : eval values row (operandTree entity left right) = first)
    (rightValue : eval values row (operandTree entity right left) = last) :
    eval values row (image entity (.binary op left right)) = combine values op (sqlEqual values first last) first last := by
  have compare : nodeTree op (operandTree entity left right) (operandTree entity right left) =
      .compare (sqlOperator op) (operandTree entity left right) (operandTree entity right left) := by
    rcases compares with rfl | rfl
    · rfl
    · rfl
  rw [image_untested entity (.inr untested), compare, eval, leftValue, rightValue]
  cases first with
  | none => rcases compares with rfl | rfl <;> rfl
  | some first =>
    cases last with
    | none => rcases compares with rfl | rfl <;> rfl
    | some last => rcases compares with rfl | rfl <;> rfl

/-- The compiled tree evaluates to what the compiler's choice says, node by node. -/
theorem eval_image (entity : EdmEntity) (row : Str → Option (Datum α)) (expr : Expr) (basic : Basic expr) :
    eval values row (image entity expr) = literalNulls values entity row expr := by
  induction expr with
  | property name => rfl
  | literal value => exact eval_literal values row [] value
  | unary op child ih =>
    cases op
    rw [image, eval, ih basic]
    rfl
  | functionCall name args => exact basic.elim
  | binary op left right first last =>
    obtain ⟨fragment, basicLeft, basicRight⟩ := basic
    have leftValue := eval_operandTree values entity row left right (first basicLeft)
    have rightValue := eval_operandTree values entity row right left (last basicRight)
    have compared : op = .eq ∨ op = .ne → eval values row (image entity (.binary op left right)) =
        literalNulls values entity row (.binary op left right) := by
      intro compares
      rw [literalNulls, evaluate]
      by_cases tested : NullTested left right
      · rw [if_pos tested]
        exact eval_tested values compares tested (first basicLeft) (last basicRight)
      · rw [if_neg tested]
        exact eval_untested values compares tested leftValue rightValue
    rcases fragment with equal | unequal | rfl | rfl
    · exact compared (.inl equal)
    · exact compared (.inr unequal)
    · rw [image_untested entity (.inl rfl), nodeTree, eval, leftValue, rightValue]
      rfl
    · rw [image_untested entity (.inl rfl), nodeTree, eval, leftValue, rightValue]
      rfl

theorem sqlEqual_definite {first last : Option (Datum α)} (someFirst : first ≠ none) (someLast : last ≠ none) :
    sqlEqual values first last = some (nullSafeEqual values first last) := by
  obtain ⟨first, rfl⟩ := Option.ne_none_iff_exists'.mp someFirst
  obtain ⟨last, rfl⟩ := Option.ne_none_iff_exists'.mp someLast
  rfl

/-- On a definite row the compiler's choice makes no difference. -/
theorem literalNulls_definite (entity : EdmEntity) (row : Str → Option (Datum α)) (expr : Expr) (basic : Basic expr)
    (definite : Definite values entity row expr) : literalNulls values entity row expr = odata values entity row expr := by
  induction expr with
  | property name => rfl
  | literal value => rfl
  | unary op child ih =>
    cases op
    have inner := ih basic definite
    rw [literalNulls, odata] at inner ⊢
    rw [evaluate, evaluate, inner]
  | functionCall name args => rfl
  | binary op left right first last =>
    obtain ⟨fragment, basicLeft, basicRight⟩ := basic
    obtain ⟨definiteLeft, definiteRight, here⟩ := definite
    have before := first basicLeft definiteLeft
    have after := last basicRight definiteRight
    rw [literalNulls] at before after ⊢
    rw [odata] at before after here ⊢
    rw [evaluate, evaluate, before, after]
    by_cases tested : NullTested left right
    · rw [if_pos tested]
    · rw [if_neg tested]
      rcases fragment with rfl | rfl | rfl | rfl
      · obtain ⟨someFirst, someLast⟩ := here trivial tested
        rw [sqlEqual_definite values someFirst someLast]
      · obtain ⟨someFirst, someLast⟩ := here trivial tested
        rw [sqlEqual_definite values someFirst someLast]
      · rfl
      · rfl

/-- The rows a filter keeps: those on which it is true when a comparison with
the literal `null` is OData's and every other comparison is SQL's, and so OData's
choice wherever no operand of these other comparisons is null. -/
theorem keeps_iff (entity : EdmEntity) (row : Str → Option (Datum α)) (expr : Expr) (basic : Basic expr) :
    (Keeps values row (image entity expr) ↔ values.truth (literalNulls values entity row expr) = some true) ∧
      (Definite values entity row expr →
        (Keeps values row (image entity expr) ↔ values.truth (odata values entity row expr) = some true)) := by
  rw [Keeps, eval_image values entity row expr basic]
  refine ⟨Iff.rfl, ?_⟩
  intro definite
  rw [literalNulls_definite values entity row expr basic definite]

/-- The same of the condition's text, where SQL groups it as the syntax tree does. -/
theorem keeps_text (entity : EdmEntity) (types : WellFormedTypes entity) (row : Str → Option (Datum α)) (expr : Expr)
    (basic : Basic expr) (separated : Separated expr) {text : Str} (done : compile entity expr = .ok text) :
    ∃ tree, parseSql text = some tree ∧
      (Keeps values row tree ↔ values.truth (literalNulls values entity row expr) = some true) := by
  obtain ⟨take, reads⟩ := compile_reads types expr text done
  refine ⟨image entity expr, ?_, ?_⟩
  · rw [parseSql, (compile_lexes types expr text done).lex, Option.bind_some]
    exact reads.parse.mpr separated
  · rw [Keeps, eval_image values entity row expr basic]

private def digits : Values Str where
  number negative digits := .other (if negative then '-' :: digits else digits)
  string := .other
  cast value _ := value
  call _ _ := none
  equal first last := first = last
  less _ _ := false
  holds _ := false

private def readings : EdmEntity :=
  { schema := "main".toList, name := "readings".toList, properties := [{ name := "a".toList, duckdbType := "BIGINT".toList }] }

private def absent : Str → Option (Datum Str) := fun _ => none

/-- `not (a eq null)` keeps no row without a value. -/
theorem keeps_iff_tested :
    ¬Keeps digits absent (image readings (.unary .not (.binary .eq (.property "a".toList) (.literal .null)))) := by
  have basic : Basic (.unary .not (.binary .eq (.property "a".toList) (.literal .null))) := ⟨.inl rfl, trivial, trivial⟩
  have definite : Definite digits readings absent (.unary .not (.binary .eq (.property "a".toList) (.literal .null))) :=
    ⟨trivial, trivial, fun _ untested => absurd (.inr ⟨rfl, rfl⟩) untested⟩
  rw [(keeps_iff digits readings absent _ basic).2 definite]
  decide

/-- `a ne 1` is true in OData where `a` is null, and unknown in SQL. -/
theorem keeps_iff_null :
    ∃ expr text, parseFilter "a ne 1".toList = .ok expr ∧ compile readings expr = .ok text ∧ Basic expr ∧
      digits.truth (odata digits readings absent expr) = some true ∧ ¬Keeps digits absent (image readings expr) := by
  let expr : Expr := .binary .ne (.property "a".toList) (.literal (.integer 1))
  have tokens : tokenize "a ne 1".toList = .ok (print expr ++ [{ type := .end }]) := rfl
  have parsed : parseFilter "a ne 1".toList = .ok expr := by
    rw [parseFilter, tokens, ok_bind]
    exact parse_print expr rfl
  refine ⟨expr, "\"a\" <> 1".toList, parsed, rfl, ⟨.inr (.inl rfl), trivial, trivial⟩, rfl, ?_⟩
  intro keeps
  exact absurd (show (none : Option Bool) = some true from keeps) (by decide)

end DuckdbOdata.NullSemantics
