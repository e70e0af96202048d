import DuckdbOdata.Compiler.SqlCompiler
import DuckdbOdata.Foundation.SqlGrammar
import DuckdbOdata.Proofs.FilterGrammar

/-! The tokens of compiled SQL. Every piece of text that the compilers append is
a lexeme that says where it comes from, and the text lexes to exactly the tokens
of these lexemes: no client text can leave its token. -/

namespace DuckdbOdata.SqlTokens
open Text Binary64 FilterGrammar

inductive Lexeme
  | keyword (name : Str)
  | operator (symbol : Str)
  | wildcard
  | countAll
  | parameter
  | punctuation (c : Char)
  | integer (value : Int)
  | float (value : Double)
  | clientString (value : Str)
  | column (name : Str)
  | source (word : Str) (path : List Str)
  | typeName (name : Str)

def numberTokens (negative : Bool) (digits : Str) : List Sql.Token :=
  if negative then [.op ['-'], .num digits] else [.num digits]

def Lexeme.tokens : Lexeme → List Sql.Token
  | .keyword name => [.word name]
  | .operator symbol => [.op symbol]
  | .wildcard => [.op ['*']]
  | .countAll => [.word "COUNT".toList, .punct '(', .op ['*'], .punct ')']
  | .parameter => [.op ['?']]
  | .punctuation c => [.punct c]
  | .integer value => numberTokens (value < 0) (Nat.toDigits 10 value.natAbs)
  | .float value => numberTokens value.negative value.unsigned
  | .clientString value => [.str value]
  | .column name => [.ident name]
  | .source word path => .word word :: [.punct '.'].intercalate (path.map fun name => [.ident name])
  | .typeName name => (Sql.lex name).getD []

def tokensOf (lexemes : List Lexeme) : List Sql.Token := lexemes.flatMap Lexeme.tokens

/-- The names that qualify the table, as far as they are known. -/
def tablePath (entity : EdmEntity) : List Str :=
  if entity.catalog ≠ [] ∧ entity.schema ≠ [] then [entity.catalog, entity.schema, entity.table]
  else if entity.schema ≠ [] then [entity.schema, entity.table]
  else [entity.table]

/-- The words that the compilers write: keywords, the alias of the count, and
the names of the functions. -/
def vocabulary : List Str :=
  ["SELECT", "WHERE", "ORDER", "BY", "ASC", "DESC", "LIMIT", "OFFSET", "AS", "__odata_count", "AND", "OR", "NOT", "IS",
    "NULL", "TRUE", "FALSE", "CAST"].map String.toList ++ functionMap.map (·.duckdbName)

/-- Where a lexeme of a statement about `entity` may come from. -/
def Lexeme.Allowed (entity : EdmEntity) : Lexeme → Prop
  | .keyword name => name ∈ vocabulary
  | .operator symbol => symbol ∈ ["=", "<>", "<", "<=", ">", ">="].map String.toList
  | .wildcard => entity.properties = []
  | .countAll => True
  | .parameter => False
  | .punctuation c => c ∈ ['(', ')', ',']
  | .integer _ | .float _ | .clientString _ => True
  | .column name => ∃ prop ∈ entity.properties, sameName prop.name name
  | .source word path => word = "FROM".toList ∧ path = tablePath entity
  | .typeName name => name = "BIGINT".toList ∨ name = "BOOLEAN".toList ∨ ∃ prop ∈ entity.properties, prop.duckdbType = name

def Lexeme.clientStrings : Lexeme → List Str
  | .clientString value => [value]
  | _ => []

/-- The client's string literals and key values, in the order of the text. -/
def clientStrings (lexemes : List Lexeme) : List Str := lexemes.flatMap Lexeme.clientStrings

/-- A type name that lexes on its own, to balanced tokens without comments and
without a semicolon. -/
structure WellFormedType (name : Str) : Prop where
  lexes : Sql.Lexes name ((Sql.lex name).getD [])
  balanced : Sql.Balanced ((Sql.lex name).getD [])
  single : ∀ token ∈ (Sql.lex name).getD [], token ≠ .comment ∧ token ≠ .punct ';'

/-- The catalog's type names are well formed. -/
def WellFormedTypes (entity : EdmEntity) : Prop := ∀ prop ∈ entity.properties, WellFormedType prop.duckdbType

theorem WellFormedType.bigint : WellFormedType "BIGINT".toList where
  lexes := Sql.lexes_word _ (by decide)
  balanced := by decide
  single := by decide

theorem WellFormedType.boolean : WellFormedType "BOOLEAN".toList where
  lexes := Sql.lexes_word _ (by decide)
  balanced := by decide
  single := by decide

@[simp] theorem tokensOf_nil : tokensOf [] = [] := rfl

@[simp] theorem tokensOf_cons (lexeme : Lexeme) (lexemes : List Lexeme) :
    tokensOf (lexeme :: lexemes) = lexeme.tokens ++ tokensOf lexemes := by
  simp [tokensOf]

@[simp] theorem tokensOf_append (first last : List Lexeme) : tokensOf (first ++ last) = tokensOf first ++ tokensOf last := by
  simp [tokensOf]

/-- A table reference is a word, points and identifiers. -/
theorem source_tokens {word : Str} {path : List Str} {token : Sql.Token} (member : token ∈ (Lexeme.source word path).tokens) :
    token = .word word ∨ token = .punct '.' ∨ ∃ name, token = .ident name := by
  rcases List.mem_cons.mp member with same | member
  · exact .inl same
  rcases mem_intercalate member with point | ⟨item, listed, inside⟩
  · exact .inr (.inl (List.mem_singleton.mp point))
  · obtain ⟨name, -, rfl⟩ := List.mem_map.mp listed
    exact .inr (.inr ⟨name, List.mem_singleton.mp inside⟩)

def castLexemes (value type : Str) : List Lexeme :=
  [.keyword "CAST".toList, .punctuation '(', .clientString value, .keyword "AS".toList, .typeName type, .punctuation ')']

def literalLexemes (target : Str) : LiteralExpr → List Lexeme
  | .null => [.keyword "NULL".toList]
  | .boolean value => [.keyword (if value then "TRUE".toList else "FALSE".toList)]
  | .integer value => [.integer value]
  | .float value => [.float value]
  | .string value =>
    if baseTypeOf target = [] ∨ isStringBase (baseTypeOf target) then [.clientString value] else castLexemes value target

def operatorLexeme : BinaryOp → Lexeme
  | .and => .keyword "AND".toList
  | .or => .keyword "OR".toList
  | op => .operator (sqlOperator op)

def joinedLexemes (op : BinaryOp) (left right : List Lexeme) : List Lexeme :=
  if op = .and ∨ op = .or then .punctuation '(' :: (left ++ operatorLexeme op :: right ++ [.punctuation ')'])
  else left ++ operatorLexeme op :: right

def nullTestLexemes : BinaryOp → List Lexeme
  | .ne => [.keyword "IS".toList, .keyword "NOT".toList, .keyword "NULL".toList]
  | _ => [.keyword "IS".toList, .keyword "NULL".toList]

def columnOf (entity : EdmEntity) (name : Str) : Str :=
  match findProperty entity name with
  | some prop => prop.name
  | none => name

def functionOf (name : Str) : Str :=
  match findFunction name with
  | some entry => entry.duckdbName
  | none => name

mutual
def exprLexemes (entity : EdmEntity) : Expr → List Lexeme
  | .property name => [.column (columnOf entity name)]
  | .literal value => literalLexemes [] value
  | .unary .not child => .punctuation '(' :: .keyword "NOT".toList :: (exprLexemes entity child ++ [.punctuation ')'])
  | .binary op left right =>
    match binaryForm op left right with
    | .testRight _ => exprLexemes entity right ++ nullTestLexemes op
    | .testLeft _ => exprLexemes entity left ++ nullTestLexemes op
    | .literalLeft value =>
      joinedLexemes op (literalLexemes (resolveLiteralType entity right) value) (exprLexemes entity right)
    | .literalRight value =>
      joinedLexemes op (exprLexemes entity left) (literalLexemes (resolveLiteralType entity left) value)
    | .general => joinedLexemes op (exprLexemes entity left) (exprLexemes entity right)
  | .functionCall name args =>
    .keyword (functionOf name) :: .punctuation '(' :: (argLexemes entity args ++ [.punctuation ')'])

/-- The arguments with the commas between them. -/
def argLexemes (entity : EdmEntity) : List Expr → List Lexeme
  | [] => []
  | [arg] => exprLexemes entity arg
  | arg :: next :: others => exprLexemes entity arg ++ .punctuation ',' :: argLexemes entity (next :: others)
end

theorem isNumeral_toDigits (n : Nat) : Sql.isNumeral (Nat.toDigits 10 n) := by
  have digits : ∀ c ∈ Nat.toDigits 10 n, c.isDigit := fun c member => Nat.isDigit_of_mem_toDigits (by decide) (by decide) member
  cases text : Nat.toDigits 10 n with
  | nil => exact absurd text Nat.toDigits_ne_nil
  | cons c rest =>
    rw [text] at digits
    simp only [Sql.isNumeral, Bool.and_eq_true, List.all_eq_true, Bool.or_eq_true]
    exact ⟨digits c (by simp), fun d member => .inl (digits d (List.mem_cons_of_mem _ member))⟩

theorem isNumeral_decimalText (millionths : Nat) : Sql.isNumeral (decimalText millionths) := by
  have whole := isNumeral_toDigits (millionths / 10 ^ 6)
  unfold decimalText
  cases digits : Nat.toDigits 10 (millionths / 10 ^ 6) with
  | nil => exact absurd digits Nat.toDigits_ne_nil
  | cons c rest =>
    rw [digits] at whole
    simp only [Sql.isNumeral, List.cons_append, Bool.and_eq_true, List.all_eq_true, List.mem_append, Bool.or_eq_true,
      List.mem_cons] at whole ⊢
    refine ⟨whole.1, ?_⟩
    rintro d (member | rfl | member)
    · exact whole.2 d member
    · simp
    · exact .inl (padded_digits member)

theorem lexes_number (negative : Bool) {digits : Str} (numeral : Sql.isNumeral digits) :
    Sql.Lexes ((if negative then ['-'] else []) ++ digits) (numberTokens negative digits) := by
  cases negative with
  | true => exact Sql.lexes_minus numeral
  | false => exact Sql.lexes_num numeral

theorem lexes_int (value : Int) : Sql.Lexes (intText value) (Lexeme.integer value).tokens := by
  have text : intText value = (if decide (value < 0) then ['-'] else []) ++ Nat.toDigits 10 value.natAbs := by
    unfold intText
    by_cases negative : value < 0 <;> simp [negative]
  rw [text]
  exact lexes_number _ (isNumeral_toDigits _)

theorem lexes_float (value : Double) : Sql.Lexes value.fixed (Lexeme.float value).tokens := by
  exact lexes_number _ (isNumeral_decimalText _)

theorem lexes_keyword (name : Str) (word : Sql.isWord name) : Sql.Lexes name (Lexeme.keyword name).tokens :=
  Sql.lexes_word name word

theorem lexes_cast {value type : Str} (types : WellFormedType type) :
    Sql.Lexes ("CAST(".toList ++ quoteStringLiteral value ++ " AS ".toList ++ type ++ ")".toList)
      (tokensOf (castLexemes value type)) := by
  have start : Sql.Opens "CAST(".toList [.word "CAST".toList, .punct '('] :=
    (lexes_keyword "CAST".toList (by decide)).opens Sql.opens_lparen rfl Sql.breaks_lparen
  have string := start.then (Sql.lexes_str value)
  have middle : Sql.Opens " AS ".toList [.word "AS".toList] :=
    Sql.opens_space.append (Sql.lexes_word "AS".toList (by decide)).space
  have typed := ((string.opens middle rfl Sql.breaks_space).then types.lexes).opens Sql.opens_rparen rfl Sql.breaks_rparen
  simpa [castLexemes, Lexeme.tokens, quoteStringLiteral] using typed.lexes

theorem findProperty_mem {entity : EdmEntity} {name : Str} {prop : EdmProperty} (found : findProperty entity name = some prop) :
    prop ∈ entity.properties ∧ sameName prop.name name :=
  ⟨List.mem_reverse.mp (List.mem_of_find?_eq_some found), by simpa using List.find?_some found⟩

/-- A type at which a string literal is cast. -/
def CastTarget (entity : EdmEntity) (target : Str) : Prop :=
  target = "BIGINT".toList ∨ target = "BOOLEAN".toList ∨ ∃ prop ∈ entity.properties, prop.duckdbType = target

def plainTarget (target : Str) : Prop := baseTypeOf target = [] ∨ isStringBase (baseTypeOf target) = true

/-- A type at which a literal is compared: a fixed one, or that of a property whose
type is supported. -/
def ComparedType (entity : EdmEntity) (target : Str) : Prop :=
  target = "BIGINT".toList ∨ target = "BOOLEAN".toList ∨
    ∃ prop ∈ entity.properties, prop.edmType ≠ .unsupported ∧ prop.duckdbType = target

theorem ComparedType.cast {entity : EdmEntity} {target : Str} (compared : ComparedType entity target) : CastTarget entity target := by
  rcases compared with fixed | fixed | ⟨prop, member, -, typed⟩
  · exact .inl fixed
  · exact .inr (.inl fixed)
  · exact .inr (.inr ⟨prop, member, typed⟩)

theorem resolveLiteralType_compared (entity : EdmEntity) (other : Expr) :
    plainTarget (resolveLiteralType entity other) ∨ ComparedType entity (resolveLiteralType entity other) := by
  have nothing : plainTarget [] := .inl rfl
  unfold resolveLiteralType
  split
  next name =>
    split
    next prop found =>
      split
      next supported => exact .inr (.inr (.inr ⟨prop, (findProperty_mem found).1, supported, rfl⟩))
      next => exact .inl nothing
    next => exact .inl nothing
  next name args =>
    split
    · exact .inr (.inl rfl)
    · split
      · exact .inl (.inr (by decide))
      · exact .inr (.inr (.inl rfl))
  next => exact .inl nothing

/-- The type a literal is compared at is a property's or one of the fixed ones. -/
theorem resolveLiteralType_cases (entity : EdmEntity) (other : Expr) :
    plainTarget (resolveLiteralType entity other) ∨ CastTarget entity (resolveLiteralType entity other) :=
  (resolveLiteralType_compared entity other).imp_right ComparedType.cast

theorem CastTarget.wellFormed {entity : EdmEntity} {target : Str} (cast : CastTarget entity target)
    (types : WellFormedTypes entity) : WellFormedType target := by
  rcases cast with rfl | rfl | ⟨prop, member, rfl⟩
  · exact .bigint
  · exact .boolean
  · exact types prop member

theorem lexes_literal {entity : EdmEntity} (types : WellFormedTypes entity) {target : Str}
    (typed : plainTarget target ∨ CastTarget entity target) (value : LiteralExpr) :
    Sql.Lexes (compileLiteral target value) (tokensOf (literalLexemes target value)) := by
  cases value with
  | null => exact lexes_keyword "NULL".toList (by decide)
  | boolean value =>
    cases value with
    | true => exact lexes_keyword "TRUE".toList (by decide)
    | false => exact lexes_keyword "FALSE".toList (by decide)
  | integer value => simpa [literalLexemes, compileLiteral] using lexes_int value
  | float value => simpa [literalLexemes, compileLiteral] using lexes_float value
  | string value =>
    simp only [compileLiteral, literalLexemes]
    by_cases plain : baseTypeOf target = [] ∨ isStringBase (baseTypeOf target) = true
    · rw [if_pos plain, if_pos plain]
      exact Sql.lexes_str value
    · rw [if_neg plain, if_neg plain]
      exact lexes_cast ((typed.resolve_left plain).wellFormed types)

private theorem lexes_sqlOperator (op : BinaryOp) : Sql.Lexes (sqlOperator op) (operatorLexeme op).tokens := by
  cases op with
  | and => exact lexes_keyword _ (by decide)
  | or => exact lexes_keyword _ (by decide)
  | _ => exact Sql.lexes_operator _ (by decide)

theorem lexes_joined (op : BinaryOp) {lhs rhs : Str} {left right : List Lexeme} (first : Sql.Lexes lhs (tokensOf left))
    (last : Sql.Lexes rhs (tokensOf right)) : Sql.Lexes (joined op lhs rhs) (tokensOf (joinedLexemes op left right)) := by
  have inner : Sql.Lexes (lhs ++ ' ' :: (sqlOperator op ++ ' ' :: rhs))
      (tokensOf left ++ ((operatorLexeme op).tokens ++ tokensOf right)) := first.spaced ((lexes_sqlOperator op).spaced last)
  unfold joined joinedLexemes
  by_cases connective : op = .and ∨ op = .or
  · simpa [connective, Lexeme.tokens] using inner.parens.lexes
  · simpa [connective] using inner

theorem lexes_nullTest {op : BinaryOp} {test text : Str} {lexemes : List Lexeme} (tests : nullTest op = some test)
    (lexes : Sql.Lexes text (tokensOf lexemes)) : Sql.Lexes (text ++ test) (tokensOf (lexemes ++ nullTestLexemes op)) := by
  have is : Sql.Lexes "IS".toList (Lexeme.keyword "IS".toList).tokens := lexes_keyword _ (by decide)
  have not : Sql.Lexes "NOT".toList (Lexeme.keyword "NOT".toList).tokens := lexes_keyword _ (by decide)
  have null : Sql.Lexes "NULL".toList (Lexeme.keyword "NULL".toList).tokens := lexes_keyword _ (by decide)
  cases op with
  | eq =>
    cases tests
    simpa [nullTestLexemes] using lexes.spaced (is.spaced null)
  | ne =>
    cases tests
    simpa [nullTestLexemes] using lexes.spaced (is.spaced (not.spaced null))
  | _ => cases tests

theorem functionMap_words : ∀ entry ∈ functionMap, Sql.isWord entry.duckdbName = true := by decide

theorem findFunction_mem {name : Str} {entry : FunctionMapEntry} (found : findFunction name = some entry) :
    entry ∈ functionMap ∧ toLower name = entry.odataName :=
  ⟨List.mem_of_find?_eq_some found, by simpa using List.find?_some found⟩

theorem compileArgs_nil {entity : EdmEntity} {args : List Expr} (done : compileArgs entity args = .ok []) : args = [] := by
  cases args with
  | nil => rfl
  | cons arg others =>
    rw [compileArgs] at done
    obtain ⟨text, -, more⟩ := bind_ok done
    obtain ⟨texts, -, same⟩ := bind_ok more
    cases same

private theorem lexes_args (entity : EdmEntity) (args : List Expr)
    (inner : ∀ arg ∈ args, ∀ text, compile entity arg = .ok text → Sql.Lexes text (tokensOf (exprLexemes entity arg)))
    (texts : List Str) (done : compileArgs entity args = .ok texts) :
    Sql.Lexes (", ".toList.intercalate texts) (tokensOf (argLexemes entity args)) := by
  induction args generalizing texts with
  | nil => cases done; exact Sql.opens_nil.lexes
  | cons arg others ih =>
    rw [compileArgs] at done
    obtain ⟨text, compiled, more⟩ := bind_ok done
    obtain ⟨rest, compiledRest, same⟩ := bind_ok more
    cases same
    have first := inner arg (by simp) text compiled
    cases others with
    | nil =>
      cases compiledRest
      simpa [argLexemes, List.intercalate] using first
    | cons next others =>
      have later := ih (fun other member => inner other (List.mem_cons_of_mem _ member)) rest compiledRest
      have comma : Sql.Opens ", ".toList [.punct ','] := Sql.opens_comma.append Sql.opens_space
      cases rest with
      | nil => cases compileArgs_nil compiledRest
      | cons second rest =>
        have step := (first.opens comma rfl Sql.breaks_comma).then later
        simpa [argLexemes, Lexeme.tokens, List.intercalate, List.intersperse] using step

theorem binaryForm_test {op : BinaryOp} {left right : Expr} {test : Str}
    (form : binaryForm op left right = .testRight test ∨ binaryForm op left right = .testLeft test) :
    nullTest op = some test := by
  unfold binaryForm at form
  split at form <;> rcases form with form | form <;> cases form <;> assumption

theorem now_entry : ∀ entry ∈ functionMap, entry.odataName = "now".toList →
    entry.duckdbName = "now".toList ∧ entry.maxArgs = 0 := by decide

/-- Compiled text has exactly the tokens of its lexemes. -/
theorem compile_lexes {entity : EdmEntity} (types : WellFormedTypes entity) (expr : Expr) (text : Str)
    (done : compile entity expr = .ok text) : Sql.Lexes text (tokensOf (exprLexemes entity expr)) := by
  induction expr generalizing text with
  | property name =>
    simp only [compile, resolveProperty] at done
    split at done
    next prop found =>
      cases done
      have named : exprLexemes entity (.property name) = [.column prop.name] := by simp [exprLexemes, columnOf, found]
      rw [named]
      exact Sql.lexes_ident prop.name
    next => cases done
  | literal value =>
    cases done
    exact lexes_literal types (.inl (.inl rfl)) value
  | unary op child inner =>
    cases op
    obtain ⟨text, compiled, same⟩ := bind_ok done
    cases same
    have not : Sql.Lexes "NOT".toList (Lexeme.keyword "NOT".toList).tokens := lexes_keyword _ (by decide)
    simpa [exprLexemes, Lexeme.tokens] using (not.spaced (inner text compiled)).parens.lexes
  | binary op left right first last =>
    have typed := fun other => lexes_literal types (resolveLiteralType_cases entity other)
    rw [compile] at done
    rw [exprLexemes]
    cases form : binaryForm op left right with
    | testRight test =>
      rw [form] at done
      obtain ⟨rhs, compiled, same⟩ := bind_ok done
      cases same
      exact lexes_nullTest (binaryForm_test (.inl form)) (last rhs compiled)
    | testLeft test =>
      rw [form] at done
      obtain ⟨lhs, compiled, same⟩ := bind_ok done
      cases same
      exact lexes_nullTest (binaryForm_test (.inr form)) (first lhs compiled)
    | literalLeft value =>
      rw [form] at done
      obtain ⟨rhs, compiled, same⟩ := bind_ok done
      cases same
      exact lexes_joined op (typed right value) (last rhs compiled)
    | literalRight value =>
      rw [form] at done
      obtain ⟨lhs, compiled, same⟩ := bind_ok done
      cases same
      exact lexes_joined op (first lhs compiled) (typed left value)
    | general =>
      rw [form] at done
      obtain ⟨lhs, compiled, more⟩ := bind_ok done
      obtain ⟨rhs, compiledRight, same⟩ := bind_ok more
      cases same
      exact lexes_joined op (first lhs compiled) (last rhs compiledRight)
  | functionCall name args inner =>
    rw [compile] at done
    rw [exprLexemes, functionOf]
    cases found : findFunction name with
    | none =>
      rw [found] at done
      cases done
    | some entry =>
      rw [found] at done
      obtain ⟨member, named⟩ := findFunction_mem found
      have call : ∀ texts, Sql.Lexes texts (tokensOf (argLexemes entity args)) →
          Sql.Lexes (entry.duckdbName ++ "(".toList ++ texts ++ ")".toList)
            (tokensOf (.keyword entry.duckdbName :: .punctuation '(' :: (argLexemes entity args ++ [.punctuation ')']))) := by
        intro texts lexes
        have word := lexes_keyword entry.duckdbName (functionMap_words entry member)
        simpa [Lexeme.tokens] using (word.opens lexes.parens rfl Sql.breaks_lparen).lexes
      simp only at done ⊢
      split at done
      next => cases done
      next arity =>
        split at done
        next now =>
          cases done
          obtain ⟨same, empty⟩ := now_entry entry member (named ▸ now)
          have none : args = [] := List.length_eq_zero_iff.mp (by omega)
          subst none
          have text := call [] Sql.opens_nil.lexes
          rw [same] at text ⊢
          exact text
        next =>
          obtain ⟨texts, compiled, done⟩ := bind_ok done
          cases done
          exact call _ (lexes_args entity args inner texts compiled)

theorem literal_eq {expr : Expr} {value : LiteralExpr} (literal : expr.literal? = some value) : expr = .literal value := by
  cases expr <;> cases literal
  rfl

theorem binaryForm_left {op : BinaryOp} {left right : Expr} {value : LiteralExpr}
    (form : binaryForm op left right = .literalLeft value) : left = .literal value := by
  unfold binaryForm at form
  split at form <;> cases form
  exact literal_eq ‹_›

theorem binaryForm_right {op : BinaryOp} {left right : Expr} {value : LiteralExpr}
    (form : binaryForm op left right = .literalRight value) : right = .literal value := by
  unfold binaryForm at form
  split at form <;> cases form
  exact literal_eq ‹_›

theorem binaryForm_nullLeft {op : BinaryOp} {left right : Expr} {test : Str}
    (form : binaryForm op left right = .testRight test) : left = .literal .null := by
  unfold binaryForm at form
  split at form <;> cases form
  exact literal_eq ‹_›

theorem binaryForm_nullRight {op : BinaryOp} {left right : Expr} {test : Str}
    (form : binaryForm op left right = .testLeft test) : right = .literal .null := by
  unfold binaryForm at form
  split at form <;> cases form
  exact literal_eq ‹_›

/-- The compiled arguments of a call. -/
theorem compileArgs_each {entity : EdmEntity} {args : List Expr} {texts : List Str}
    (done : compileArgs entity args = .ok texts) : ∀ arg ∈ args, ∃ text, compile entity arg = .ok text := by
  induction args generalizing texts with
  | nil => nofun
  | cons arg others ih =>
    rw [compileArgs] at done
    obtain ⟨text, compiled, more⟩ := bind_ok done
    obtain ⟨rest, compiledRest, -⟩ := bind_ok more
    intro other member
    rcases List.mem_cons.mp member with rfl | member
    · exact ⟨text, compiled⟩
    · exact ih compiledRest other member

/-- In an expression that compiles every name resolves. A literal always
compiles, so both operands count where only one of them is compiled. -/
@[elab_as_elim]
theorem compile_induct {entity : EdmEntity} {motive : Expr → Prop}
    (property : ∀ name prop, findProperty entity name = some prop → motive (.property name))
    (literal : ∀ value, motive (.literal value))
    (not : ∀ child, motive child → motive (.unary .not child))
    (binary : ∀ op left right, motive left → motive right → motive (.binary op left right))
    (functionCall : ∀ name args entry, findFunction name = some entry → (∀ arg ∈ args, motive arg) →
      motive (.functionCall name args))
    (expr : Expr) (text : Str) (done : compile entity expr = .ok text) : motive expr := by
  induction expr generalizing text with
  | property name =>
    simp only [compile, resolveProperty] at done
    split at done
    next prop found => exact property name prop found
    next => cases done
  | literal value => exact literal value
  | unary op child inner =>
    cases op
    obtain ⟨text, compiled, -⟩ := bind_ok done
    exact not child (inner text compiled)
  | binary op left right first last =>
    rw [compile] at done
    suffices motive left ∧ motive right from binary op left right this.1 this.2
    cases form : binaryForm op left right with
    | testRight test =>
      rw [form] at done
      obtain ⟨rhs, compiled, -⟩ := bind_ok done
      cases binaryForm_nullLeft form
      exact ⟨literal _, last rhs compiled⟩
    | testLeft test =>
      rw [form] at done
      obtain ⟨lhs, compiled, -⟩ := bind_ok done
      cases binaryForm_nullRight form
      exact ⟨first lhs compiled, literal _⟩
    | literalLeft value =>
      rw [form] at done
      obtain ⟨rhs, compiled, -⟩ := bind_ok done
      cases binaryForm_left form
      exact ⟨literal _, last rhs compiled⟩
    | literalRight value =>
      rw [form] at done
      obtain ⟨lhs, compiled, -⟩ := bind_ok done
      cases binaryForm_right form
      exact ⟨first lhs compiled, literal _⟩
    | general =>
      rw [form] at done
      obtain ⟨lhs, compiled, more⟩ := bind_ok done
      obtain ⟨rhs, compiledRight, -⟩ := bind_ok more
      exact ⟨first lhs compiled, last rhs compiledRight⟩
  | functionCall name args inner =>
    rw [compile] at done
    cases found : findFunction name with
    | none =>
      rw [found] at done
      cases done
    | some entry =>
      rw [found] at done
      obtain ⟨member, named⟩ := findFunction_mem found
      refine functionCall name args entry found fun arg member => ?_
      simp only at done
      split at done
      next => cases done
      next arity =>
        split at done
        next now =>
          have empty := (now_entry entry ‹_› (named ▸ now)).2
          have none : args = [] := List.length_eq_zero_iff.mp (by omega)
          rw [none] at member
          cases member
        next =>
          obtain ⟨texts, compiled, -⟩ := bind_ok done
          obtain ⟨text, compiled⟩ := compileArgs_each compiled arg member
          exact inner arg member text compiled

end DuckdbOdata.SqlTokens
