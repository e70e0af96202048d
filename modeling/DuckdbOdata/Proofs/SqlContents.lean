import DuckdbOdata.Proofs.SqlTokens

/-! What the lexemes of a compiled expression contain: where each may come from,
the client's strings in order, and nothing else that depends on these strings. -/

namespace DuckdbOdata.SqlTokens
open Text Binary64 FilterGrammar

/-- The lexemes of an operand: its own, or those of a literal typed by the other side. -/
def Operand (entity : EdmEntity) (expr : Expr) (lexemes : List Lexeme) : Prop :=
  lexemes = exprLexemes entity expr ∨
    ∃ target value, expr = .literal value ∧ (plainTarget target ∨ CastTarget entity target) ∧
      lexemes = literalLexemes target value

theorem exprLexemes_binary (entity : EdmEntity) (op : BinaryOp) (left right : Expr) :
    (left = .literal .null ∧ exprLexemes entity (.binary op left right) = exprLexemes entity right ++ nullTestLexemes op) ∨
      (right = .literal .null ∧ exprLexemes entity (.binary op left right) = exprLexemes entity left ++ nullTestLexemes op) ∨
      ∃ first last, Operand entity left first ∧ Operand entity right last ∧
        exprLexemes entity (.binary op left right) = joinedLexemes op first last := by
  have typed := resolveLiteralType_cases entity
  rw [exprLexemes]
  cases form : binaryForm op left right with
  | testRight test => exact .inl ⟨binaryForm_nullLeft form, rfl⟩
  | testLeft test => exact .inr (.inl ⟨binaryForm_nullRight form, rfl⟩)
  | literalLeft value => exact .inr (.inr ⟨_, _, .inr ⟨_, value, binaryForm_left form, typed right, rfl⟩, .inl rfl, rfl⟩)
  | literalRight value => exact .inr (.inr ⟨_, _, .inl rfl, .inr ⟨_, value, binaryForm_right form, typed left, rfl⟩, rfl⟩)
  | general => exact .inr (.inr ⟨_, _, .inl rfl, .inl rfl, rfl⟩)

/-- Every lexeme may be in a statement about `entity`. -/
def AllAllowed (entity : EdmEntity) (lexemes : List Lexeme) : Prop := ∀ lexeme ∈ lexemes, lexeme.Allowed entity

@[simp] theorem allAllowed_nil (entity : EdmEntity) : AllAllowed entity [] := nofun

@[simp] theorem allAllowed_cons (entity : EdmEntity) (lexeme : Lexeme) (lexemes : List Lexeme) :
    AllAllowed entity (lexeme :: lexemes) ↔ lexeme.Allowed entity ∧ AllAllowed entity lexemes := List.forall_mem_cons

@[simp] theorem allAllowed_append (entity : EdmEntity) (first last : List Lexeme) :
    AllAllowed entity (first ++ last) ↔ AllAllowed entity first ∧ AllAllowed entity last := List.forall_mem_append

theorem allAllowed_intercalate {entity : EdmEntity} {between : List Lexeme} (separator : AllAllowed entity between)
    (items : List (List Lexeme)) (each : ∀ item ∈ items, AllAllowed entity item) :
    AllAllowed entity (between.intercalate items) := by
  intro lexeme member
  rcases mem_intercalate member with inBetween | ⟨item, listed, inside⟩
  · exact separator lexeme inBetween
  · exact each item listed lexeme inside

theorem allowed_keyword (entity : EdmEntity) (name : Str) (member : name ∈ vocabulary) :
    (Lexeme.keyword name).Allowed entity := member

theorem allowed_punctuation (entity : EdmEntity) {c : Char} (member : c ∈ ['(', ')', ',']) :
    (Lexeme.punctuation c).Allowed entity := member

theorem allowed_cast {entity : EdmEntity} {type : Str} (cast : CastTarget entity type) (value : Str) :
    AllAllowed entity (castLexemes value type) := by
  have typed : (Lexeme.typeName type).Allowed entity := cast
  simp only [castLexemes, allAllowed_cons, allAllowed_nil, and_true]
  exact ⟨allowed_keyword entity _ (by decide), allowed_punctuation entity (by decide), trivial,
    allowed_keyword entity _ (by decide), typed, allowed_punctuation entity (by decide)⟩

private theorem allowed_literal {entity : EdmEntity} {target : Str} (typed : plainTarget target ∨ CastTarget entity target)
    (value : LiteralExpr) : AllAllowed entity (literalLexemes target value) := by
  cases value with
  | null => simpa [literalLexemes] using allowed_keyword entity _ (by decide)
  | boolean value => cases value <;> simpa [literalLexemes] using allowed_keyword entity _ (by decide)
  | integer value => simp [literalLexemes, Lexeme.Allowed]
  | float value => simp [literalLexemes, Lexeme.Allowed]
  | string value =>
    simp only [literalLexemes]
    split
    next => simp [Lexeme.Allowed]
    next plain => exact allowed_cast (typed.resolve_left plain) value

private theorem allowed_operator (entity : EdmEntity) (op : BinaryOp) : (operatorLexeme op).Allowed entity := by
  cases op <;> simp only [operatorLexeme, Lexeme.Allowed] <;> decide

private theorem allowed_joined {entity : EdmEntity} (op : BinaryOp) {first last : List Lexeme} (left : AllAllowed entity first)
    (right : AllAllowed entity last) : AllAllowed entity (joinedLexemes op first last) := by
  have opening := allowed_punctuation entity (c := '(') (by decide)
  have closing := allowed_punctuation entity (c := ')') (by decide)
  unfold joinedLexemes
  split <;> simp [left, right, opening, closing, allowed_operator entity op]

private theorem allowed_nullTest (entity : EdmEntity) (op : BinaryOp) : AllAllowed entity (nullTestLexemes op) := by
  have is := allowed_keyword entity "IS".toList (by decide)
  have not := allowed_keyword entity "NOT".toList (by decide)
  have null := allowed_keyword entity "NULL".toList (by decide)
  unfold nullTestLexemes
  split <;> simp only [allAllowed_cons, allAllowed_nil, is, not, null, and_self]

theorem allowed_function {entry : FunctionMapEntry} (member : entry ∈ functionMap) : entry.duckdbName ∈ vocabulary :=
  List.mem_append_right _ (List.mem_map_of_mem member)

theorem argLexemes_eq (entity : EdmEntity) (args : List Expr) :
    argLexemes entity args = [.punctuation ','].intercalate (args.map (exprLexemes entity)) := by
  induction args with
  | nil => rfl
  | cons arg others ih =>
    cases others with
    | nil => simp [argLexemes]
    | cons next others => simp [argLexemes, ih]

theorem compile_allowed {entity : EdmEntity} (expr : Expr) (text : Str) (done : compile entity expr = .ok text) :
    AllAllowed entity (exprLexemes entity expr) := by
  have opening := allowed_punctuation entity (c := '(') (by decide)
  have closing := allowed_punctuation entity (c := ')') (by decide)
  refine compile_induct ?_ ?_ ?_ ?_ ?_ expr text done
  · intro name prop found
    obtain ⟨member, same⟩ := findProperty_mem found
    simpa [exprLexemes, columnOf, found, Lexeme.Allowed] using ⟨prop, member, rfl⟩
  · exact fun value => allowed_literal (.inl (.inl rfl)) value
  · intro child inner
    have not := allowed_keyword entity "NOT".toList (by decide)
    simpa only [exprLexemes, allAllowed_cons, allAllowed_append, allAllowed_nil, and_true] using ⟨opening, not, inner, closing⟩
  · intro op left right first last
    have operand : ∀ {expr lexemes}, AllAllowed entity (exprLexemes entity expr) → Operand entity expr lexemes →
        AllAllowed entity lexemes := by
      rintro expr lexemes allowed (rfl | ⟨target, value, rfl, typed, rfl⟩)
      · exact allowed
      · exact allowed_literal typed value
    rcases exprLexemes_binary entity op left right with ⟨-, same⟩ | ⟨-, same⟩ | ⟨before, after, isLeft, isRight, same⟩
    · simp [same, last, allowed_nullTest]
    · simp [same, first, allowed_nullTest]
    · rw [same]
      exact allowed_joined op (operand first isLeft) (operand last isRight)
  · intro name args entry found inner
    have function := allowed_keyword entity _ (allowed_function (findFunction_mem found).1)
    have comma : AllAllowed entity [.punctuation ','] := by simpa using allowed_punctuation entity (by decide)
    have arguments : AllAllowed entity (argLexemes entity args) := by
      rw [argLexemes_eq]
      refine allAllowed_intercalate comma _ fun item listed => ?_
      obtain ⟨arg, member, rfl⟩ := List.mem_map.mp listed
      exact inner arg member
    simp [exprLexemes, functionOf, found, function, opening, closing, arguments]

def literalStrings : LiteralExpr → List Str
  | .string value => [value]
  | _ => []

mutual
/-- The string literals of an expression, from left to right. -/
def stringsOf : Expr → List Str
  | .property _ => []
  | .literal value => literalStrings value
  | .unary _ child => stringsOf child
  | .binary _ left right => stringsOf left ++ stringsOf right
  | .functionCall _ args => allStringsOf args

def allStringsOf : List Expr → List Str
  | [] => []
  | arg :: others => stringsOf arg ++ allStringsOf others
end

@[simp] theorem clientStrings_nil : clientStrings [] = [] := rfl

@[simp] theorem clientStrings_cons (lexeme : Lexeme) (lexemes : List Lexeme) :
    clientStrings (lexeme :: lexemes) = lexeme.clientStrings ++ clientStrings lexemes := by
  simp [clientStrings]

@[simp] theorem punctuation_strings (c : Char) : (Lexeme.punctuation c).clientStrings = [] := rfl

@[simp] theorem clientStrings_append (first last : List Lexeme) :
    clientStrings (first ++ last) = clientStrings first ++ clientStrings last := by
  simp [clientStrings]

theorem clientStrings_intercalate {between : List Lexeme} (none : clientStrings between = []) (items : List (List Lexeme)) :
    clientStrings (between.intercalate items) = items.flatMap clientStrings := by
  induction items with
  | nil => rfl
  | cons item others ih =>
    cases others with
    | nil => simp
    | cons next others => simp [ih, none]

private theorem strings_literal (target : Str) (value : LiteralExpr) :
    clientStrings (literalLexemes target value) = literalStrings value := by
  cases value with
  | string value =>
    simp only [literalLexemes, literalStrings]
    split <;> rfl
  | _ => simp [literalLexemes, literalStrings, Lexeme.clientStrings]

private theorem strings_joined (op : BinaryOp) (first last : List Lexeme) :
    clientStrings (joinedLexemes op first last) = clientStrings first ++ clientStrings last := by
  have operator : (operatorLexeme op).clientStrings = [] := by cases op <;> rfl
  unfold joinedLexemes
  split <;> simp [operator]

private theorem strings_nullTest (op : BinaryOp) : clientStrings (nullTestLexemes op) = [] := by cases op <;> rfl

private theorem strings_args (entity : EdmEntity) (args : List Expr)
    (inner : ∀ arg ∈ args, clientStrings (exprLexemes entity arg) = stringsOf arg) :
    clientStrings (argLexemes entity args) = allStringsOf args := by
  rw [argLexemes_eq, clientStrings_intercalate rfl]
  induction args with
  | nil => rfl
  | cons arg others ih =>
    simp [allStringsOf, inner arg (by simp), ih fun other member => inner other (List.mem_cons_of_mem _ member)]

/-- Each string literal is the content of one token. -/
theorem exprLexemes_strings (entity : EdmEntity) (expr : Expr) : clientStrings (exprLexemes entity expr) = stringsOf expr := by
  induction expr with
  | property name => rfl
  | literal value => exact strings_literal [] value
  | unary op child inner =>
    cases op
    simp [exprLexemes, stringsOf, inner, Lexeme.clientStrings]
  | binary op left right first last =>
    have operand : ∀ {expr lexemes}, clientStrings (exprLexemes entity expr) = stringsOf expr → Operand entity expr lexemes →
        clientStrings lexemes = stringsOf expr := by
      rintro expr lexemes same (rfl | ⟨target, value, rfl, -, rfl⟩)
      · exact same
      · exact strings_literal target value
    rcases exprLexemes_binary entity op left right with ⟨rfl, same⟩ | ⟨rfl, same⟩ | ⟨before, after, isLeft, isRight, same⟩
    · simp [same, last, strings_nullTest, stringsOf, literalStrings]
    · simp [same, first, strings_nullTest, stringsOf, literalStrings]
    · rw [same, strings_joined, operand first isLeft, operand last isRight, stringsOf]
  | functionCall name args inner =>
    simp [exprLexemes, stringsOf, strings_args entity args inner, Lexeme.clientStrings]

def blankLiteral : LiteralExpr → LiteralExpr
  | .string _ => .string []
  | value => value

mutual
/-- The expression with every string literal emptied. -/
def blank : Expr → Expr
  | .property name => .property name
  | .literal value => .literal (blankLiteral value)
  | .unary op child => .unary op (blank child)
  | .binary op left right => .binary op (blank left) (blank right)
  | .functionCall name args => .functionCall name (blankAll args)

def blankAll : List Expr → List Expr
  | [] => []
  | arg :: others => blank arg :: blankAll others
end

def Lexeme.blank : Lexeme → Lexeme
  | .clientString _ => .clientString []
  | lexeme => lexeme

@[simp] theorem punctuation_blank (c : Char) : (Lexeme.punctuation c).blank = .punctuation c := rfl

def blankForm : BinaryForm → BinaryForm
  | .literalLeft value => .literalLeft (blankLiteral value)
  | .literalRight value => .literalRight (blankLiteral value)
  | form => form

theorem blank_literal? (expr : Expr) : (blank expr).literal? = expr.literal?.map blankLiteral := by
  cases expr <;> rfl

theorem binaryForm_blank (op : BinaryOp) (left right : Expr) :
    binaryForm op (blank left) (blank right) = blankForm (binaryForm op left right) := by
  unfold binaryForm
  rw [blank_literal?, blank_literal?]
  cases left.literal? with
  | none =>
    cases right.literal? with
    | none => cases nullTest op <;> rfl
    | some value => cases nullTest op <;> cases value <;> rfl
  | some value =>
    cases right.literal? with
    | none => cases nullTest op <;> cases value <;> rfl
    | some other => cases nullTest op <;> cases value <;> rfl

theorem resolveLiteralType_blank (entity : EdmEntity) (expr : Expr) :
    resolveLiteralType entity (blank expr) = resolveLiteralType entity expr := by
  cases expr <;> rfl

private theorem literalLexemes_blank (target : Str) (value : LiteralExpr) :
    literalLexemes target (blankLiteral value) = (literalLexemes target value).map Lexeme.blank := by
  cases value with
  | string value =>
    simp only [literalLexemes, blankLiteral]
    split <;> rfl
  | _ => rfl

private theorem joinedLexemes_blank (op : BinaryOp) (first last : List Lexeme) :
    joinedLexemes op (first.map Lexeme.blank) (last.map Lexeme.blank) = (joinedLexemes op first last).map Lexeme.blank := by
  have operator : (operatorLexeme op).blank = operatorLexeme op := by cases op <;> rfl
  unfold joinedLexemes
  split <;> simp [operator]

private theorem nullTestLexemes_blank (op : BinaryOp) : (nullTestLexemes op).map Lexeme.blank = nullTestLexemes op := by
  cases op <;> rfl

private theorem argLexemes_blank (entity : EdmEntity) (args : List Expr)
    (inner : ∀ arg ∈ args, exprLexemes entity (blank arg) = (exprLexemes entity arg).map Lexeme.blank) :
    argLexemes entity (blankAll args) = (argLexemes entity args).map Lexeme.blank := by
  have items : (blankAll args).map (exprLexemes entity) = (args.map (exprLexemes entity)).map (List.map Lexeme.blank) := by
    induction args with
    | nil => rfl
    | cons arg others ih =>
      simp [blankAll, inner arg (by simp), ih fun other member => inner other (List.mem_cons_of_mem _ member)]
  rw [argLexemes_eq, argLexemes_eq, items, map_intercalate]
  rfl

theorem exprLexemes_blank (entity : EdmEntity) (expr : Expr) :
    exprLexemes entity (blank expr) = (exprLexemes entity expr).map Lexeme.blank := by
  induction expr with
  | property name => rfl
  | literal value => exact literalLexemes_blank [] value
  | unary op child inner =>
    cases op
    simp [exprLexemes, blank, inner, Lexeme.blank]
  | binary op left right first last =>
    rw [blank, exprLexemes, exprLexemes, binaryForm_blank, resolveLiteralType_blank, resolveLiteralType_blank, first, last]
    cases binaryForm op left right with
    | testRight test => simp [blankForm, nullTestLexemes_blank]
    | testLeft test => simp [blankForm, nullTestLexemes_blank]
    | _ => simp only [blankForm, literalLexemes_blank, joinedLexemes_blank]
  | functionCall name args inner =>
    simp [exprLexemes, blank, argLexemes_blank entity args inner, Lexeme.blank]

end DuckdbOdata.SqlTokens
