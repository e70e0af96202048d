import DuckdbOdata.Parser.ODataParser

/-! The documented grammar of `$filter` as derivations, and the parser as its
decision procedure: a token list is accepted exactly when it has a derivation,
and the syntax tree is the derivation's tree. -/

namespace DuckdbOdata.FilterGrammar
open Text FilterParser

mutual
/-- `orExpr := andExpr ('or' andExpr)*`, associating to the left. -/
inductive OrExpr : List Token → Expr → Prop
  | single {tokens expr} : AndExpr tokens expr → OrExpr tokens expr
  | more {first last left right} {op : Token} : OrExpr first left → op.type = .or → AndExpr last right →
      OrExpr (first ++ op :: last) (.binary .or left right)

/-- `andExpr := notExpr ('and' notExpr)*`, associating to the left. -/
inductive AndExpr : List Token → Expr → Prop
  | single {tokens expr} : NotExpr tokens expr → AndExpr tokens expr
  | more {first last left right} {op : Token} : AndExpr first left → op.type = .and → NotExpr last right →
      AndExpr (first ++ op :: last) (.binary .and left right)

/-- `notExpr := 'not' notExpr | comparison` -/
inductive NotExpr : List Token → Expr → Prop
  | not {tokens child} {op : Token} : op.type = .not → NotExpr tokens child → NotExpr (op :: tokens) (.unary .not child)
  | comparison {tokens expr} : Comparison tokens expr → NotExpr tokens expr

/-- `comparison := primary (op primary)?` -/
inductive Comparison : List Token → Expr → Prop
  | bare {tokens expr} : Primary tokens expr → Comparison tokens expr
  | compare {first last left right op} {token : Token} : Primary first left → comparisonOp token.type = some op →
      Primary last right → Comparison (first ++ token :: last) (.binary op left right)

/-- `primary := literal | property | name '(' [args] ')' | '(' orExpr ')'` -/
inductive Primary : List Token → Expr → Prop
  | literal {token : Token} {value} : literalOf token = some value → Primary [token] (.literal value)
  | property {token : Token} : token.type = .identifier → Primary [token] (.property token.text)
  | callEmpty {token opening closing : Token} : token.type = .identifier → opening.type = .lparen →
      closing.type = .rparen → Primary [token, opening, closing] (.functionCall token.text [])
  | call {tokens args} {token opening closing : Token} : token.type = .identifier → opening.type = .lparen →
      Args tokens args → closing.type = .rparen →
      Primary (token :: opening :: (tokens ++ [closing])) (.functionCall token.text args)
  | group {tokens expr} {opening closing : Token} : opening.type = .lparen → OrExpr tokens expr →
      closing.type = .rparen → Primary (opening :: (tokens ++ [closing])) expr

/-- `args := orExpr (',' orExpr)*` -/
inductive Args : List Token → List Expr → Prop
  | last {tokens expr} : OrExpr tokens expr → Args tokens [expr]
  | more {first rest expr args} {comma : Token} : OrExpr first expr → comma.type = .comma → Args rest args →
      Args (first ++ comma :: rest) (expr :: args)
end

theorem accept_some {type : TokenType} {tokens rest : List Token} (accepted : accept type tokens = .ok (some rest)) :
    ∃ token : Token, tokens = token :: rest ∧ token.type = type := by
  cases tokens with
  | nil => cases accepted
  | cons token tokens =>
    simp only [accept] at accepted
    split at accepted
    next same => cases accepted; exact ⟨token, rfl, same⟩
    next => cases accepted

theorem expect_ok {type : TokenType} {what : Str} {tokens rest : List Token}
    (expected : expect type what tokens = .ok rest) : ∃ token : Token, tokens = token :: rest ∧ token.type = type := by
  cases tokens with
  | nil => cases expected
  | cons token tokens =>
    simp only [expect] at expected
    split at expected
    next same => cases expected; exact ⟨token, rfl, same⟩
    next => cases expected

/-- A bind that succeeded, taken apart. -/
theorem bind_ok {first : Except ε α} {next : α → Except ε β} {result : β} (done : first >>= next = .ok result) :
    ∃ value, first = .ok value ∧ next value = .ok result := by
  cases first with
  | error e => cases done
  | ok value => exact ⟨value, rfl, done⟩

/-- What each parser function has read when it succeeds with `fuel`. -/
structure Sound (fuel : Nat) : Prop where
  or : ∀ tokens expr rest, parseOr fuel tokens = .ok (expr, rest) → ∃ used, tokens = used ++ rest ∧ OrExpr used expr
  orRest : ∀ before left tokens expr rest, OrExpr before left → orLoop fuel left tokens = .ok (expr, rest) →
    ∃ used, tokens = used ++ rest ∧ OrExpr (before ++ used) expr
  and : ∀ tokens expr rest, parseAnd fuel tokens = .ok (expr, rest) → ∃ used, tokens = used ++ rest ∧ AndExpr used expr
  andRest : ∀ before left tokens expr rest, AndExpr before left → andLoop fuel left tokens = .ok (expr, rest) →
    ∃ used, tokens = used ++ rest ∧ AndExpr (before ++ used) expr
  not : ∀ tokens expr rest, parseNot fuel tokens = .ok (expr, rest) → ∃ used, tokens = used ++ rest ∧ NotExpr used expr
  comparison : ∀ tokens expr rest, parseComparison fuel tokens = .ok (expr, rest) →
    ∃ used, tokens = used ++ rest ∧ Comparison used expr
  primary : ∀ tokens expr rest, parsePrimary fuel tokens = .ok (expr, rest) →
    ∃ used, tokens = used ++ rest ∧ Primary used expr
  args : ∀ tokens args rest, parseArgs fuel tokens = .ok (args, rest) →
    ∃ used closing, tokens = used ++ closing :: rest ∧ Args used args ∧ closing.type = .rparen

private theorem Sound.zero : Sound 0 := by
  constructor <;> intros <;> simp_all [parseOr, orLoop, parseAnd, andLoop, parseNot, parseComparison, parsePrimary, parseArgs]

private theorem Sound.parseOr {fuel : Nat} (sound : Sound fuel) (tokens : List Token) (expr : Expr) (rest : List Token)
    (parsed : parseOr (fuel + 1) tokens = .ok (expr, rest)) : ∃ used, tokens = used ++ rest ∧ OrExpr used expr := by
  rw [FilterParser.parseOr] at parsed
  obtain ⟨⟨left, middle⟩, first, looped⟩ := bind_ok parsed
  obtain ⟨before, rfl, derived⟩ := sound.and _ _ _ first
  obtain ⟨used, rfl, whole⟩ := sound.orRest before left middle expr rest (.single derived) looped
  exact ⟨before ++ used, by simp, whole⟩

private theorem Sound.parseOrRest {fuel : Nat} (sound : Sound fuel) (before : List Token) (left : Expr)
    (tokens : List Token) (expr : Expr) (rest : List Token) (derived : OrExpr before left)
    (looped : orLoop (fuel + 1) left tokens = .ok (expr, rest)) :
    ∃ used, tokens = used ++ rest ∧ OrExpr (before ++ used) expr := by
  rw [orLoop] at looped
  obtain ⟨matched, accepted, continued⟩ := bind_ok looped
  cases matched with
  | none => cases continued; exact ⟨[], rfl, by simpa using derived⟩
  | some after =>
    obtain ⟨op, rfl, type⟩ := accept_some accepted
    obtain ⟨⟨right, middle⟩, second, again⟩ := bind_ok continued
    obtain ⟨read, rfl, operand⟩ := sound.and _ _ _ second
    obtain ⟨used, rfl, whole⟩ := sound.orRest _ _ _ expr rest (.more derived type operand) again
    exact ⟨op :: (read ++ used), by simp, by simpa using whole⟩

private theorem Sound.parseAnd {fuel : Nat} (sound : Sound fuel) (tokens : List Token) (expr : Expr) (rest : List Token)
    (parsed : parseAnd (fuel + 1) tokens = .ok (expr, rest)) : ∃ used, tokens = used ++ rest ∧ AndExpr used expr := by
  rw [FilterParser.parseAnd] at parsed
  obtain ⟨⟨left, middle⟩, first, looped⟩ := bind_ok parsed
  obtain ⟨before, rfl, derived⟩ := sound.not _ _ _ first
  obtain ⟨used, rfl, whole⟩ := sound.andRest before left middle expr rest (.single derived) looped
  exact ⟨before ++ used, by simp, whole⟩

private theorem Sound.parseAndRest {fuel : Nat} (sound : Sound fuel) (before : List Token) (left : Expr)
    (tokens : List Token) (expr : Expr) (rest : List Token) (derived : AndExpr before left)
    (looped : andLoop (fuel + 1) left tokens = .ok (expr, rest)) :
    ∃ used, tokens = used ++ rest ∧ AndExpr (before ++ used) expr := by
  rw [andLoop] at looped
  obtain ⟨matched, accepted, continued⟩ := bind_ok looped
  cases matched with
  | none => cases continued; exact ⟨[], rfl, by simpa using derived⟩
  | some after =>
    obtain ⟨op, rfl, type⟩ := accept_some accepted
    obtain ⟨⟨right, middle⟩, second, again⟩ := bind_ok continued
    obtain ⟨read, rfl, operand⟩ := sound.not _ _ _ second
    obtain ⟨used, rfl, whole⟩ := sound.andRest _ _ _ expr rest (.more derived type operand) again
    exact ⟨op :: (read ++ used), by simp, by simpa using whole⟩

private theorem Sound.parseNot {fuel : Nat} (sound : Sound fuel) (tokens : List Token) (expr : Expr) (rest : List Token)
    (parsed : parseNot (fuel + 1) tokens = .ok (expr, rest)) : ∃ used, tokens = used ++ rest ∧ NotExpr used expr := by
  rw [FilterParser.parseNot] at parsed
  obtain ⟨matched, accepted, continued⟩ := bind_ok parsed
  cases matched with
  | none =>
    obtain ⟨used, same, derived⟩ := sound.comparison _ _ _ continued
    exact ⟨used, same, .comparison derived⟩
  | some after =>
    obtain ⟨op, rfl, type⟩ := accept_some accepted
    obtain ⟨⟨child, middle⟩, inner, done⟩ := bind_ok continued
    cases done
    obtain ⟨used, rfl, derived⟩ := sound.not _ _ _ inner
    exact ⟨op :: used, rfl, .not type derived⟩

private theorem Sound.parseComparison {fuel : Nat} (sound : Sound fuel) (tokens : List Token) (expr : Expr)
    (rest : List Token) (parsed : parseComparison (fuel + 1) tokens = .ok (expr, rest)) :
    ∃ used, tokens = used ++ rest ∧ Comparison used expr := by
  rw [FilterParser.parseComparison] at parsed
  obtain ⟨⟨left, middle⟩, first, continued⟩ := bind_ok parsed
  obtain ⟨before, rfl, derived⟩ := sound.primary _ _ _ first
  cases middle with
  | nil => cases continued
  | cons token after =>
    simp only at continued
    split at continued
    next => cases continued; exact ⟨before, rfl, .bare derived⟩
    next op compared =>
      obtain ⟨⟨right, last⟩, second, done⟩ := bind_ok continued
      cases done
      obtain ⟨read, rfl, operand⟩ := sound.primary _ _ _ second
      exact ⟨before ++ token :: read, by simp, .compare derived compared operand⟩

private theorem Sound.parsePrimary {fuel : Nat} (sound : Sound fuel) (tokens : List Token) (expr : Expr)
    (rest : List Token) (parsed : parsePrimary (fuel + 1) tokens = .ok (expr, rest)) :
    ∃ used, tokens = used ++ rest ∧ Primary used expr := by
  cases tokens with
  | nil => cases parsed
  | cons token tokens =>
    simp only [FilterParser.parsePrimary] at parsed
    split at parsed
    next value literal => cases parsed; exact ⟨[token], rfl, .literal literal⟩
    next =>
      split at parsed
      next opening =>
        obtain ⟨⟨inner, middle⟩, first, closed⟩ := bind_ok parsed
        obtain ⟨after, expected, done⟩ := bind_ok closed
        cases done
        obtain ⟨used, rfl, derived⟩ := sound.or _ _ _ first
        obtain ⟨closing, rfl, type⟩ := expect_ok expected
        exact ⟨token :: (used ++ [closing]), by simp, .group opening derived type⟩
      next identifier =>
        obtain ⟨matched, accepted, continued⟩ := bind_ok parsed
        cases matched with
        | none => cases continued; exact ⟨[token], rfl, .property identifier⟩
        | some inner =>
          obtain ⟨opening, rfl, openType⟩ := accept_some accepted
          obtain ⟨ended, acceptedEnd, arguments⟩ := bind_ok continued
          cases ended with
          | some after =>
            cases arguments
            obtain ⟨closing, rfl, closeType⟩ := accept_some acceptedEnd
            exact ⟨[token, opening, closing], rfl, .callEmpty identifier openType closeType⟩
          | none =>
            obtain ⟨⟨args, last⟩, parsedArgs, done⟩ := bind_ok arguments
            cases done
            obtain ⟨used, closing, rfl, derived, closeType⟩ := sound.args _ _ _ parsedArgs
            exact ⟨token :: opening :: (used ++ [closing]), by simp, .call identifier openType derived closeType⟩
      next => cases parsed

private theorem Sound.parseArgs {fuel : Nat} (sound : Sound fuel) (tokens : List Token) (args : List Expr)
    (rest : List Token) (parsed : parseArgs (fuel + 1) tokens = .ok (args, rest)) :
    ∃ used closing, tokens = used ++ closing :: rest ∧ Args used args ∧ closing.type = .rparen := by
  rw [FilterParser.parseArgs] at parsed
  obtain ⟨⟨arg, middle⟩, first, continued⟩ := bind_ok parsed
  obtain ⟨before, rfl, derived⟩ := sound.or _ _ _ first
  obtain ⟨matched, accepted, continued⟩ := bind_ok continued
  cases matched with
  | some after =>
    cases continued
    obtain ⟨closing, rfl, type⟩ := accept_some accepted
    exact ⟨before, closing, by simp, .last derived, type⟩
  | none =>
    obtain ⟨after, expected, remaining⟩ := bind_ok continued
    obtain ⟨comma, rfl, type⟩ := expect_ok expected
    obtain ⟨⟨others, last⟩, again, done⟩ := bind_ok remaining
    cases done
    obtain ⟨used, closing, rfl, others, closeType⟩ := sound.args _ _ _ again
    exact ⟨before ++ comma :: used, closing, by simp, .more derived type others, closeType⟩

theorem sound (fuel : Nat) : Sound fuel := by
  induction fuel with
  | zero => exact .zero
  | succ fuel ih =>
    exact ⟨ih.parseOr, ih.parseOrRest, ih.parseAnd, ih.parseAndRest, ih.parseNot, ih.parseComparison,
      ih.parsePrimary, ih.parseArgs⟩

/-- What the parser relies on in a derivable token list. -/
structure Shape (tokens : List Token) : Prop where
  open' : ∀ token ∈ tokens, token.type ≠ .end
  start : ∃ token rest, tokens = token :: rest ∧ token.type ≠ .rparen

private theorem Shape.append {first last : List Token} {op : Token} (left : Shape first) (right : Shape last)
    (type : op.type ≠ .end) : Shape (first ++ op :: last) := by
  obtain ⟨token, rest, rfl, start⟩ := left.start
  refine ⟨?_, token, rest ++ op :: last, by simp, start⟩
  intro other member
  rcases List.mem_append.mp member with member | member
  · exact left.open' other member
  · rcases List.mem_cons.mp member with rfl | member
    · exact type
    · exact right.open' other member

private theorem Shape.wrap {tokens : List Token} {closing : Token} (front : List Token) (inner : Shape tokens)
    (openings : Shape front) (closed : closing.type = .rparen) : Shape (front ++ (tokens ++ [closing])) := by
  obtain ⟨token, rest, rfl, start⟩ := openings.start
  refine ⟨?_, token, rest ++ (tokens ++ [closing]), by simp, start⟩
  intro other member
  simp only [List.mem_append, List.mem_singleton] at member
  rcases member with member | member | rfl
  · exact openings.open' other member
  · exact inner.open' other member
  · simp [closed]

theorem literalOf_type {token : Token} {value : LiteralExpr} (literal : literalOf token = some value) :
    token.type = .integer ∨ token.type = .float ∨ token.type = .string ∨ token.type = .boolean ∨
      token.type = .nullVal := by
  unfold literalOf at literal
  cases type : token.type <;> simp_all

private theorem Shape.literal {token : Token} {value : LiteralExpr} (literal : literalOf token = some value) :
    Shape [token] := by
  rcases literalOf_type literal with type | type | type | type | type <;>
    exact ⟨by simp [type], token, [], rfl, by simp [type]⟩

theorem comparisonOp_open {token : Token} {op : BinaryOp} (compared : comparisonOp token.type = some op) :
    token.type ≠ .end := by
  intro same
  simp [same, comparisonOp] at compared

mutual
theorem OrExpr.shape {tokens : List Token} {expr : Expr} : OrExpr tokens expr → Shape tokens
  | .single derived => derived.shape
  | .more first type last => first.shape.append last.shape (by simp [type])

theorem AndExpr.shape {tokens : List Token} {expr : Expr} : AndExpr tokens expr → Shape tokens
  | .single derived => derived.shape
  | .more first type last => first.shape.append last.shape (by simp [type])

theorem NotExpr.shape {tokens : List Token} {expr : Expr} : NotExpr tokens expr → Shape tokens
  | @NotExpr.not rest _ op type derived =>
    ⟨by simpa [type] using derived.shape.open', op, rest, rfl, by simp [type]⟩
  | .comparison derived => derived.shape

theorem Comparison.shape {tokens : List Token} {expr : Expr} : Comparison tokens expr → Shape tokens
  | .bare derived => derived.shape
  | .compare first compared last => first.shape.append last.shape (comparisonOp_open compared)

theorem Primary.shape {tokens : List Token} {expr : Expr} : Primary tokens expr → Shape tokens
  | .literal literal => .literal literal
  | .property type => ⟨by simp [type], _, _, rfl, by simp [type]⟩
  | .callEmpty type opening closing => ⟨by simp [type, opening, closing], _, _, rfl, by simp [type]⟩
  | @Primary.call _ _ token opening _ type openType args closing =>
    Shape.wrap [token, opening] args.shape ⟨by simp [type, openType], _, _, rfl, by simp [type]⟩ closing
  | @Primary.group _ _ opening _ openType derived closing =>
    Shape.wrap [opening] derived.shape ⟨by simp [openType], _, _, rfl, by simp [openType]⟩ closing

theorem Args.shape {tokens : List Token} {args : List Expr} : Args tokens args → Shape tokens
  | .last derived => derived.shape
  | .more first type rest => first.shape.append rest.shape (by simp [type])
end

/-- Only a `notExpr` can start with `not`. -/
theorem Primary.start {tokens : List Token} {expr : Expr} (derived : Primary tokens expr) :
    ∃ token rest, tokens = token :: rest ∧ token.type ≠ .not := by
  cases derived with
  | @literal token _ literal => 
    refine ⟨token, [], rfl, ?_⟩
    rcases literalOf_type literal with type | type | type | type | type <;> simp [type]
  | property type => exact ⟨_, _, rfl, by simp [type]⟩
  | callEmpty type _ _ => exact ⟨_, _, rfl, by simp [type]⟩
  | call type _ _ _ => exact ⟨_, _, rfl, by simp [type]⟩
  | group type _ _ => exact ⟨_, _, rfl, by simp [type]⟩

theorem Comparison.start {tokens : List Token} {expr : Expr} (derived : Comparison tokens expr) :
    ∃ token rest, tokens = token :: rest ∧ token.type ≠ .not := by
  cases derived with
  | bare first => exact first.start
  | compare first _ _ =>
    obtain ⟨token, rest, rfl, type⟩ := first.start
    exact ⟨token, _, rfl, type⟩

/-- The only END token is the last one. -/
def Ended : List Token → Prop
  | [] => False
  | token :: rest => if token.type = .end then rest = [] else Ended rest

theorem ended_append (front : List Token) (last : Token) (final : last.type = .end)
    (inner : ∀ token ∈ front, token.type ≠ .end) : Ended (front ++ [last]) := by
  induction front with
  | nil => simp [Ended, final]
  | cons token front ih =>
    simp only [List.cons_append, Ended, inner token (by simp), ite_false]
    exact ih (fun other member => inner other (by simp [member]))

theorem Ended.after {used rest : List Token} (ended : Ended (used ++ rest))
    (inner : ∀ token ∈ used, token.type ≠ .end) : Ended rest := by
  induction used with
  | nil => exact ended
  | cons token used ih =>
    simp only [List.cons_append, Ended, inner token (by simp), ite_false] at ended
    exact ih ended (fun other member => inner other (by simp [member]))

theorem Ended.tail {token : Token} {rest : List Token} (ended : Ended (token :: rest)) (inner : token.type ≠ .end) :
    Ended rest := by
  simpa [Ended, inner] using ended

/-- Every failure is a parse exception; in particular the fuel was enough. -/
def Reported (result : Except Exn α) : Prop := ∀ failure, result = .error failure → ∃ message, failure = .odataParse message

@[simp] theorem reported_ok (value : α) : Reported (.ok value) := nofun

@[simp] theorem reported_parse (message : Str) : Reported (.error (.odataParse message) : Except Exn α) := by
  intro failure same
  cases same
  exact ⟨message, rfl⟩

theorem Reported.bind {first : Except Exn α} {next : α → Except Exn β} (reported : Reported first)
    (continued : ∀ value, first = .ok value → Reported (next value)) : Reported (first >>= next) := by
  cases first with
  | error e => exact fun failure same => reported failure (congrArg Except.error (Except.error.inj same))
  | ok value => exact continued value rfl

theorem accept_reported {type : TokenType} {tokens : List Token} (ended : Ended tokens) : Reported (accept type tokens) := by
  cases tokens with
  | nil => exact ended.elim
  | cons token rest => simp [accept]

theorem expect_reported {type : TokenType} {what : Str} {tokens : List Token} (ended : Ended tokens) :
    Reported (expect type what tokens) := by
  cases tokens with
  | nil => exact ended.elim
  | cons token rest =>
    simp only [expect]
    split <;> simp

/-- Fuel that suffices on token lists that end in END. The constants order the
calls that read no token before the next call: `args > or > and > not > comparison > primary`. -/
structure Total (fuel : Nat) : Prop where
  or : ∀ tokens, Ended tokens → 7 * tokens.length + 5 ≤ fuel → Reported (parseOr fuel tokens)
  orRest : ∀ left tokens, Ended tokens → 7 * tokens.length + 1 ≤ fuel → Reported (orLoop fuel left tokens)
  and : ∀ tokens, Ended tokens → 7 * tokens.length + 4 ≤ fuel → Reported (parseAnd fuel tokens)
  andRest : ∀ left tokens, Ended tokens → 7 * tokens.length + 1 ≤ fuel → Reported (andLoop fuel left tokens)
  not : ∀ tokens, Ended tokens → 7 * tokens.length + 3 ≤ fuel → Reported (parseNot fuel tokens)
  comparison : ∀ tokens, Ended tokens → 7 * tokens.length + 2 ≤ fuel → Reported (parseComparison fuel tokens)
  primary : ∀ tokens, Ended tokens → 7 * tokens.length + 1 ≤ fuel → Reported (parsePrimary fuel tokens)
  args : ∀ tokens, Ended tokens → 7 * tokens.length + 6 ≤ fuel → Reported (parseArgs fuel tokens)

/-- After a derivation the rest still ends in END and is shorter. -/
theorem Ended.shorter {used rest : List Token} (ended : Ended (used ++ rest)) (shape : Shape used) :
    Ended rest ∧ rest.length < (used ++ rest).length := by
  obtain ⟨token, tail, rfl, -⟩ := shape.start
  exact ⟨ended.after shape.open', by rw [List.length_append, List.length_cons]; omega⟩

theorem parseOr_rest {fuel : Nat} {tokens rest : List Token} {expr : Expr} (ended : Ended tokens)
    (parsed : parseOr fuel tokens = .ok (expr, rest)) : Ended rest ∧ rest.length < tokens.length := by
  obtain ⟨used, rfl, derived⟩ := (sound fuel).or _ _ _ parsed
  exact ended.shorter derived.shape

theorem parseAnd_rest {fuel : Nat} {tokens rest : List Token} {expr : Expr} (ended : Ended tokens)
    (parsed : parseAnd fuel tokens = .ok (expr, rest)) : Ended rest ∧ rest.length < tokens.length := by
  obtain ⟨used, rfl, derived⟩ := (sound fuel).and _ _ _ parsed
  exact ended.shorter derived.shape

theorem parseNot_rest {fuel : Nat} {tokens rest : List Token} {expr : Expr} (ended : Ended tokens)
    (parsed : parseNot fuel tokens = .ok (expr, rest)) : Ended rest ∧ rest.length < tokens.length := by
  obtain ⟨used, rfl, derived⟩ := (sound fuel).not _ _ _ parsed
  exact ended.shorter derived.shape

theorem parsePrimary_rest {fuel : Nat} {tokens rest : List Token} {expr : Expr} (ended : Ended tokens)
    (parsed : parsePrimary fuel tokens = .ok (expr, rest)) : Ended rest ∧ rest.length < tokens.length := by
  obtain ⟨used, rfl, derived⟩ := (sound fuel).primary _ _ _ parsed
  exact ended.shorter derived.shape

/-- A token of a type other than END leaves a shorter list that ends in END. -/
theorem accept_rest {type : TokenType} {tokens rest : List Token} (ended : Ended tokens) (inner : type ≠ .end)
    (accepted : accept type tokens = .ok (some rest)) : Ended rest ∧ rest.length < tokens.length := by
  obtain ⟨token, rfl, same⟩ := accept_some accepted
  exact ⟨ended.tail (same ▸ inner), by simp⟩

theorem expect_rest {type : TokenType} {what : Str} {tokens rest : List Token} (ended : Ended tokens)
    (inner : type ≠ .end) (expected : expect type what tokens = .ok rest) :
    Ended rest ∧ rest.length < tokens.length := by
  obtain ⟨token, rfl, same⟩ := expect_ok expected
  exact ⟨ended.tail (same ▸ inner), by simp⟩

private theorem Total.zero : Total 0 := by
  constructor <;> intros <;> omega

private theorem Total.step {fuel : Nat} (total : Total fuel) : Total (fuel + 1) := by
  constructor
  · intro tokens ended bound
    rw [parseOr]
    refine (total.and tokens ended (by omega)).bind ?_
    intro (left, rest) parsed
    obtain ⟨endedRest, shorter⟩ := parseAnd_rest ended parsed
    exact total.orRest left rest endedRest (by omega)
  · intro left tokens ended bound
    rw [orLoop]
    refine (accept_reported ended).bind ?_
    intro matched accepted
    cases matched with
    | none => exact reported_ok _
    | some after =>
      obtain ⟨endedAfter, shorter⟩ := accept_rest ended (by simp) accepted
      refine (total.and after endedAfter (by omega)).bind ?_
      intro (right, rest) parsed
      obtain ⟨endedRest, less⟩ := parseAnd_rest endedAfter parsed
      exact total.orRest _ rest endedRest (by omega)
  · intro tokens ended bound
    rw [parseAnd]
    refine (total.not tokens ended (by omega)).bind ?_
    intro (left, rest) parsed
    obtain ⟨endedRest, shorter⟩ := parseNot_rest ended parsed
    exact total.andRest left rest endedRest (by omega)
  · intro left tokens ended bound
    rw [andLoop]
    refine (accept_reported ended).bind ?_
    intro matched accepted
    cases matched with
    | none => exact reported_ok _
    | some after =>
      obtain ⟨endedAfter, shorter⟩ := accept_rest ended (by simp) accepted
      refine (total.not after endedAfter (by omega)).bind ?_
      intro (right, rest) parsed
      obtain ⟨endedRest, less⟩ := parseNot_rest endedAfter parsed
      exact total.andRest _ rest endedRest (by omega)
  · intro tokens ended bound
    rw [parseNot]
    refine (accept_reported ended).bind ?_
    intro matched accepted
    cases matched with
    | none => exact total.comparison tokens ended (by omega)
    | some after =>
      obtain ⟨endedAfter, shorter⟩ := accept_rest ended (by simp) accepted
      refine (total.not after endedAfter (by omega)).bind ?_
      intro _ _
      exact reported_ok _
  · intro tokens ended bound
    rw [parseComparison]
    refine (total.primary tokens ended (by omega)).bind ?_
    intro (left, rest) parsed
    obtain ⟨endedRest, shorter⟩ := parsePrimary_rest ended parsed
    cases rest with
    | nil => exact endedRest.elim
    | cons token after =>
      simp only
      split
      next => exact reported_ok _
      next op compared =>
        have endedAfter := endedRest.tail (comparisonOp_open compared)
        simp only [List.length_cons] at shorter
        refine (total.primary after endedAfter (by omega)).bind ?_
        intro _ _
        exact reported_ok _
  · intro tokens ended bound
    cases tokens with
    | nil => exact ended.elim
    | cons token rest =>
      simp only [List.length_cons] at bound
      simp only [parsePrimary]
      split
      next => exact reported_ok _
      next =>
        split
        next type =>
          have endedRest := ended.tail (by simp [type])
          refine (total.or rest endedRest (by omega)).bind ?_
          intro (expr, after) parsed
          refine (expect_reported (parseOr_rest endedRest parsed).1).bind ?_
          intro _ _
          exact reported_ok _
        next type =>
          have endedRest := ended.tail (by simp [type])
          refine (accept_reported endedRest).bind ?_
          intro matched accepted
          cases matched with
          | none => exact reported_ok _
          | some inner =>
            obtain ⟨endedInner, shorter⟩ := accept_rest endedRest (by simp) accepted
            refine (accept_reported endedInner).bind ?_
            intro closed acceptedEnd
            cases closed with
            | some after => exact reported_ok _
            | none =>
              refine (total.args inner endedInner (by omega)).bind ?_
              intro _ _
              exact reported_ok _
        next => simp [unexpected]
  · intro tokens ended bound
    rw [parseArgs]
    refine (total.or tokens ended (by omega)).bind ?_
    intro (arg, rest) parsed
    obtain ⟨endedRest, shorter⟩ := parseOr_rest ended parsed
    refine (accept_reported endedRest).bind ?_
    intro matched accepted
    cases matched with
    | some after => exact reported_ok _
    | none =>
      refine (expect_reported endedRest).bind ?_
      intro after expected
      obtain ⟨endedAfter, less⟩ := expect_rest endedRest (by simp) expected
      refine (total.args after endedAfter (by omega)).bind ?_
      intro _ _
      exact reported_ok _

theorem total (fuel : Nat) : Total fuel := by
  induction fuel with
  | zero => exact .zero
  | succ fuel ih => exact ih.step

/-- The fuel of `parse` is enough, and END stops every access in time. -/
theorem parseOr_enough (tokens : List Token) (ended : Ended tokens) :
    Reported (parseOr (enough tokens) tokens) :=
  (total _).or tokens ended (by simp only [enough]; omega)

theorem parse_reported (tokens : List Token) (ended : Ended tokens) : Reported (parse tokens) := by
  cases tokens with
  | nil => exact ended.elim
  | cons token rest =>
    simp only [parse]
    split
    · exact reported_parse _
    · refine (parseOr_enough _ ended).bind ?_
      rintro ⟨expr, _ | ⟨next, after⟩⟩ parsed
      · exact (parseOr_rest ended parsed).1.elim
      · simp only
        split
        · exact reported_ok _
        · exact reported_parse _

/-- A run either is undefined (out of fuel) or has the given result. -/
def Agrees (result expected : Except Exn α) : Prop := result = .error .undefined ∨ result = expected

theorem Agrees.bind {first : Except Exn α} {next : α → Except Exn β} {value : α} {expected : Except Exn β}
    (agrees : Agrees first (.ok value)) (continued : Agrees (next value) expected) : Agrees (first >>= next) expected := by
  rcases agrees with rfl | rfl
  · exact .inl rfl
  · exact continued

theorem Agrees.eq {result expected : Except Exn α} (agrees : Agrees result expected) (reported : Reported result) :
    result = expected := by
  refine agrees.resolve_left fun stuck => ?_
  obtain ⟨message, same⟩ := reported _ stuck
  cases same

/-- The next token does not continue a primary, a comparison, a conjunction. -/
def EndsPrimary (token : Token) : Prop := token.type ≠ .lparen
def EndsComparison (token : Token) : Prop := EndsPrimary token ∧ comparisonOp token.type = none
def EndsAnd (token : Token) : Prop := EndsComparison token ∧ token.type ≠ .and
def EndsOr (token : Token) : Prop := EndsAnd token ∧ token.type ≠ .or

theorem comparisonOp_endsPrimary {token : Token} {op : BinaryOp} (compared : comparisonOp token.type = some op) :
    EndsPrimary token := by
  intro same
  simp [same, comparisonOp] at compared

private theorem endsOr_rparen {token : Token} (type : token.type = .rparen) : EndsOr token := by
  simp [EndsOr, EndsAnd, EndsComparison, EndsPrimary, comparisonOp, type]

private theorem endsOr_comma {token : Token} (type : token.type = .comma) : EndsOr token := by
  simp [EndsOr, EndsAnd, EndsComparison, EndsPrimary, comparisonOp, type]

private theorem endsAnd_or {token : Token} (type : token.type = .or) : EndsAnd token := by
  simp [EndsAnd, EndsComparison, EndsPrimary, comparisonOp, type]

private theorem endsComparison_and {token : Token} (type : token.type = .and) : EndsComparison token := by
  simp [EndsComparison, EndsPrimary, comparisonOp, type]

theorem accept_same {type : TokenType} {token : Token} {rest : List Token} (same : token.type = type) :
    accept type (token :: rest) = .ok (some rest) := by
  simp [accept, same]

theorem accept_other {type : TokenType} {token : Token} {rest : List Token} (other : token.type ≠ type) :
    accept type (token :: rest) = .ok none := by
  simp [accept, other]

theorem ok_bind {value : α} {next : α → Except Exn β} : (Except.ok value >>= next) = next value := rfl

theorem expect_same {type : TokenType} {what : Str} {token : Token} {rest : List Token} (same : token.type = type) :
    expect type what (token :: rest) = .ok rest := by
  simp [expect, same]

theorem andLoop_done (fuel : Nat) (left : Expr) (next : Token) (rest : List Token) (ends : next.type ≠ .and) :
    Agrees (andLoop fuel left (next :: rest)) (.ok (left, next :: rest)) := by
  cases fuel with
  | zero => exact .inl rfl
  | succ fuel =>
    rw [andLoop, accept_other ends]
    exact .inr rfl

theorem orLoop_done (fuel : Nat) (left : Expr) (next : Token) (rest : List Token) (ends : next.type ≠ .or) :
    Agrees (orLoop fuel left (next :: rest)) (.ok (left, next :: rest)) := by
  cases fuel with
  | zero => exact .inl rfl
  | succ fuel =>
    rw [orLoop, accept_other ends]
    exact .inr rfl

/-- A chain of operands has been read when the run is a loop that holds its
expression; what the loop does next depends on the following token only. -/
def Reached (result : Except Exn α) (loop : Nat → Except Exn α) : Prop :=
  result = .error .undefined ∨ ∃ fuel, result = loop fuel

theorem Reached.agrees {result expected : Except Exn α} {loop : Nat → Except Exn α} (reached : Reached result loop)
    (ends : ∀ fuel, Agrees (loop fuel) expected) : Agrees result expected := by
  rcases reached with stuck | ⟨fuel, looped⟩
  · exact .inl stuck
  · rw [looped]
    exact ends fuel

theorem Agrees.reached {first : Except Exn α} {value : α} {fuel : Nat} {loop : Nat → Except Exn β}
    {next : α → Except Exn β} (agrees : Agrees first (.ok value)) (continued : next value = loop fuel) :
    Reached (first >>= next) loop := by
  rcases agrees with rfl | rfl
  · exact .inl rfl
  · exact .inr ⟨fuel, continued⟩

mutual
theorem OrExpr.reaches {tokens : List Token} {expr : Expr} (fuel : Nat) (next : Token) (rest : List Token)
    (ends : EndsAnd next) : OrExpr tokens expr →
    Reached (parseOr fuel (tokens ++ next :: rest)) (orLoop · expr (next :: rest))
  | .single derived => by
    cases fuel with
    | zero => exact .inl rfl
    | succ fuel =>
      rw [parseOr]
      have read := (derived.reaches fuel next rest ends.1).agrees (andLoop_done · expr next rest ends.2)
      exact read.reached rfl
  | @OrExpr.more first last left right op leading type trailing => by
    rw [List.append_assoc, List.cons_append]
    rcases leading.reaches fuel op (last ++ next :: rest) (endsAnd_or type) with stuck | ⟨remaining, looped⟩
    · exact .inl stuck
    · rw [looped]
      cases remaining with
      | zero => exact .inl rfl
      | succ remaining =>
        have read := (trailing.reaches remaining next rest ends.1).agrees (andLoop_done · right next rest ends.2)
        simp only [orLoop]
        rw [accept_same type, ok_bind]
        exact read.reached rfl

theorem AndExpr.reaches {tokens : List Token} {expr : Expr} (fuel : Nat) (next : Token) (rest : List Token)
    (ends : EndsComparison next) : AndExpr tokens expr →
    Reached (parseAnd fuel (tokens ++ next :: rest)) (andLoop · expr (next :: rest))
  | .single derived => by
    cases fuel with
    | zero => exact .inl rfl
    | succ fuel =>
      rw [parseAnd]
      exact (derived.agrees fuel next rest ends).reached rfl
  | @AndExpr.more first last left right op leading type trailing => by
    rw [List.append_assoc, List.cons_append]
    rcases leading.reaches fuel op (last ++ next :: rest) (endsComparison_and type) with stuck | ⟨remaining, looped⟩
    · exact .inl stuck
    · rw [looped]
      cases remaining with
      | zero => exact .inl rfl
      | succ remaining =>
        simp only [andLoop]
        rw [accept_same type, ok_bind]
        exact (trailing.agrees remaining next rest ends).reached rfl

theorem NotExpr.agrees {tokens : List Token} {expr : Expr} (fuel : Nat) (next : Token) (rest : List Token)
    (ends : EndsComparison next) : NotExpr tokens expr →
    Agrees (parseNot fuel (tokens ++ next :: rest)) (.ok (expr, next :: rest))
  | @NotExpr.not tokens child op type derived => by
    cases fuel with
    | zero => exact .inl rfl
    | succ fuel =>
      rw [parseNot, List.cons_append, accept_same type]
      exact (derived.agrees fuel next rest ends).bind (.inr rfl)
  | .comparison derived => by
    cases fuel with
    | zero => exact .inl rfl
    | succ fuel =>
      have read := derived.agrees fuel next rest ends
      obtain ⟨token, tail, same, type⟩ := derived.start
      rw [same] at read ⊢
      rw [parseNot, List.cons_append, accept_other type]
      exact read

theorem Comparison.agrees {tokens : List Token} {expr : Expr} (fuel : Nat) (next : Token) (rest : List Token)
    (ends : EndsComparison next) : Comparison tokens expr →
    Agrees (parseComparison fuel (tokens ++ next :: rest)) (.ok (expr, next :: rest))
  | .bare derived => by
    cases fuel with
    | zero => exact .inl rfl
    | succ fuel =>
      rw [parseComparison]
      refine (derived.agrees fuel next rest ends.1).bind (.inr ?_)
      simp [ends.2]
  | @Comparison.compare first last left right op token leading compared trailing => by
    cases fuel with
    | zero => exact .inl rfl
    | succ fuel =>
      rw [parseComparison, List.append_assoc, List.cons_append]
      refine (leading.agrees fuel token _ (comparisonOp_endsPrimary compared)).bind ?_
      simp only [compared]
      exact (trailing.agrees fuel next rest ends.1).bind (.inr rfl)

theorem Primary.agrees {tokens : List Token} {expr : Expr} (fuel : Nat) (next : Token) (rest : List Token)
    (ends : EndsPrimary next) : Primary tokens expr →
    Agrees (parsePrimary fuel (tokens ++ next :: rest)) (.ok (expr, next :: rest))
  | .literal literal => by
    cases fuel with
    | zero => exact .inl rfl
    | succ fuel => exact .inr (by simp [parsePrimary, literal])
  | .property type => by
    cases fuel with
    | zero => exact .inl rfl
    | succ fuel =>
      simp only [List.cons_append, List.nil_append, parsePrimary, literalOf, type]
      rw [accept_other ends]
      exact .inr rfl
  | .callEmpty type opening closing => by
    cases fuel with
    | zero => exact .inl rfl
    | succ fuel =>
      simp only [List.cons_append, List.nil_append, parsePrimary, literalOf, type]
      rw [accept_same opening, ok_bind]
      simp only
      rw [accept_same closing]
      exact .inr rfl
  | @Primary.call tokens args token opening closing type openType derived closeType => by
    cases fuel with
    | zero => exact .inl rfl
    | succ fuel =>
      have parsed := derived.agrees fuel closing (next :: rest) closeType
      obtain ⟨first, tail, same, start⟩ := derived.shape.start
      simp only [same, List.cons_append, List.append_assoc, List.nil_append] at parsed ⊢
      simp only [parsePrimary, literalOf, type]
      rw [accept_same openType, ok_bind]
      simp only
      rw [accept_other start]
      exact parsed.bind (.inr rfl)
  | @Primary.group tokens expr opening closing openType derived closeType => by
    cases fuel with
    | zero => exact .inl rfl
    | succ fuel =>
      have ends := endsOr_rparen closeType
      have parsed := (derived.reaches fuel closing (next :: rest) ends.1).agrees
        (orLoop_done · expr closing (next :: rest) ends.2)
      simp only [List.cons_append, List.append_assoc, List.nil_append] at parsed ⊢
      simp only [parsePrimary, literalOf, openType]
      refine parsed.bind (.inr ?_)
      rw [expect_same closeType]
      rfl

theorem Args.agrees {tokens : List Token} {args : List Expr} (fuel : Nat) (closing : Token) (rest : List Token)
    (type : closing.type = .rparen) : Args tokens args →
    Agrees (parseArgs fuel (tokens ++ closing :: rest)) (.ok (args, rest))
  | @Args.last tokens expr derived => by
    cases fuel with
    | zero => exact .inl rfl
    | succ fuel =>
      have ends := endsOr_rparen type
      have parsed := (derived.reaches fuel closing rest ends.1).agrees (orLoop_done · expr closing rest ends.2)
      rw [parseArgs]
      refine parsed.bind (.inr ?_)
      simp only
      rw [accept_same type]
      rfl
  | @Args.more first others expr args comma leading commaType trailing => by
    cases fuel with
    | zero => exact .inl rfl
    | succ fuel =>
      have ends := endsOr_comma commaType
      have parsed := (leading.reaches fuel comma (others ++ closing :: rest) ends.1).agrees
        (orLoop_done · expr comma _ ends.2)
      rw [parseArgs, List.append_assoc, List.cons_append]
      refine parsed.bind ?_
      simp only
      rw [accept_other (by simp [commaType])]
      change Agrees (expect _ _ _ >>= _) _
      rw [expect_same commaType]
      exact (trailing.agrees fuel closing rest type).bind (.inr rfl)
end

end DuckdbOdata.FilterGrammar
