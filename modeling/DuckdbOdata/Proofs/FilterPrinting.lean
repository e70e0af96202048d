import DuckdbOdata.Proofs.FilterGrammar

/-! Printing a syntax tree with the fewest tokens any derivation of it has, and
the parser's exactness: it accepts the derivable token lists, and reading undoes
printing. -/

namespace DuckdbOdata.FilterGrammar
open Text Binary64 FilterParser

/-- How tightly the head of an expression binds: `or`, `and`, `not`,
comparisons, and everything that is a `primary` by itself. -/
def bindingLevel : Expr → Nat
  | .binary .or _ _ => 0
  | .binary .and _ _ => 1
  | .unary _ _ => 2
  | .binary _ _ _ => 3
  | _ => 4

def opToken : BinaryOp → Token
  | .eq => { type := .eq, text := "eq".toList }
  | .ne => { type := .ne, text := "ne".toList }
  | .gt => { type := .gt, text := "gt".toList }
  | .ge => { type := .ge, text := "ge".toList }
  | .lt => { type := .lt, text := "lt".toList }
  | .le => { type := .le, text := "le".toList }
  | .and => { type := .and, text := "and".toList }
  | .or => { type := .or, text := "or".toList }

/-- The operands' levels: the left one of a chain may be the chain itself. -/
def operandLevels : BinaryOp → Nat × Nat
  | .or => (0, 1)
  | .and => (1, 2)
  | _ => (4, 4)

def literalToken : LiteralExpr → Token
  | .integer value => { type := .integer, text := intText value, intValue := value }
  | .float value => { type := .float, text := value.fixed, floatValue := value }
  | .string value => { type := .string, text := value }
  | .boolean value => { type := .boolean, text := if value then "true".toList else "false".toList }
  | .null => { type := .nullVal, text := "null".toList }

def nameToken (name : Str) : Token := { type := .identifier, text := name }
def notToken : Token := { type := .not, text := "not".toList }
def opening : Token := { type := .lparen, text := ['('] }
def closing : Token := { type := .rparen, text := [')'] }
def comma : Token := { type := .comma, text := [','] }

/-- Parentheses where the context asks for a tighter head. -/
def parenthesized (required : Nat) (expr : Expr) (tokens : List Token) : List Token :=
  if bindingLevel expr < required then opening :: (tokens ++ [closing]) else tokens

mutual
def print : Expr → List Token
  | .property name => [nameToken name]
  | .literal value => [literalToken value]
  | .binary op left right =>
    parenthesized (operandLevels op).1 left (print left) ++
      opToken op :: parenthesized (operandLevels op).2 right (print right)
  | .unary .not child => notToken :: parenthesized 2 child (print child)
  | .functionCall name args => nameToken name :: opening :: (printArgs args ++ [closing])

def printArgs : List Expr → List Token
  | [] => []
  | [arg] => print arg
  | arg :: next :: others => print arg ++ comma :: printArgs (next :: others)
end

/-- Derivable from the nonterminal of a level. -/
def Derives : Nat → List Token → Expr → Prop
  | 0 => OrExpr
  | 1 => AndExpr
  | 2 => NotExpr
  | 3 => Comparison
  | _ => Primary

private theorem Derives.below {level : Nat} {tokens : List Token} {expr : Expr} (derived : Derives (level + 1) tokens expr) :
    Derives level tokens expr := by
  match level with
  | 0 => exact .single derived
  | 1 => exact .single derived
  | 2 => exact .comparison derived
  | 3 => exact .bare derived
  | _ + 4 => exact derived

theorem Derives.lift {level lower : Nat} {tokens : List Token} {expr : Expr} (derived : Derives level tokens expr)
    (below : lower ≤ level) : Derives lower tokens expr := by
  induction below with
  | refl => exact derived
  | step _ ih => exact ih derived.below

private theorem Derives.parenthesized {expr : Expr} {tokens : List Token} (derived : Derives (bindingLevel expr) tokens expr)
    (required : Nat) : Derives required (parenthesized required expr tokens) expr := by
  unfold FilterGrammar.parenthesized
  split
  next tighter =>
    have group : Primary (opening :: (tokens ++ [closing])) expr := .group rfl (derived.lift (Nat.zero_le _)) rfl
    match required with
    | 0 | 1 | 2 | 3 => exact (show Derives 4 _ _ from group).lift (by omega)
    | _ + 4 => exact group
  next fits => exact derived.lift (Nat.not_lt.mp fits)

theorem literalOf_literalToken (value : LiteralExpr) : literalOf (literalToken value) = some value := by
  cases value with
  | boolean value => cases value <;> rfl
  | _ => rfl

/-- Comparison operators, the binary operators that do not chain. -/
def comparing : BinaryOp → Prop
  | .or | .and => False
  | _ => True

instance : DecidablePred comparing
  | .or | .and => isFalse id
  | .eq | .ne | .gt | .ge | .lt | .le => isTrue trivial

private theorem comparisonOp_opToken {op : BinaryOp} (compares : comparing op) :
    comparisonOp (opToken op).type = some op := by
  cases op <;> first | rfl | exact compares.elim

private theorem print_compare {op : BinaryOp} {left right : Expr} {first last : List Token} (compares : comparing op)
    (leading : Primary first left) (trailing : Primary last right) :
    Derives (bindingLevel (.binary op left right)) (first ++ opToken op :: last) (.binary op left right) := by
  have whole := Comparison.compare leading (comparisonOp_opToken compares) trailing
  cases op with
  | or => exact compares.elim
  | and => exact compares.elim
  | _ => exact whole

private theorem printArgs_derived (args : List Expr) (some : args ≠ [])
    (derived : ∀ arg ∈ args, Derives (bindingLevel arg) (print arg) arg) : Args (printArgs args) args := by
  induction args with
  | nil => exact absurd rfl some
  | cons arg others ih =>
    have first : OrExpr (print arg) arg := (derived arg (by simp)).lift (Nat.zero_le _)
    cases others with
    | nil => exact .last first
    | cons next others =>
      exact .more first rfl (ih (by simp) fun other member => derived other (List.mem_cons_of_mem _ member))

/-- Every expression is derivable from the nonterminal of its own level. -/
theorem print_derived (expr : Expr) : Derives (bindingLevel expr) (print expr) expr := by
  induction expr with
  | property name => exact @Primary.property (nameToken name) rfl
  | literal value => exact Primary.literal (literalOf_literalToken value)
  | binary op left right first last =>
    cases op with
    | or =>
      simp only [print]
      exact OrExpr.more (first.parenthesized 0) rfl (last.parenthesized 1)
    | and =>
      simp only [print]
      exact AndExpr.more (first.parenthesized 1) rfl (last.parenthesized 2)
    | _ =>
      simp only [print]
      exact print_compare trivial (first.parenthesized 4) (last.parenthesized 4)
  | unary op child inner =>
    cases op
    simp only [print]
    exact NotExpr.not rfl (inner.parenthesized 2)
  | functionCall name args inner =>
    simp only [print]
    cases args with
    | nil => exact @Primary.callEmpty (nameToken name) opening closing rfl rfl rfl
    | cons arg others =>
      exact @Primary.call _ _ (nameToken name) opening closing rfl rfl (printArgs_derived _ (by simp) inner) rfl

private theorem parenthesized_length (required : Nat) (expr : Expr) (tokens : List Token) :
    (parenthesized required expr tokens).length = tokens.length + if bindingLevel expr < required then 2 else 0 := by
  unfold parenthesized
  split <;> simp

private theorem parenthesized_fits {required : Nat} {expr : Expr} {tokens : List Token}
    (fits : required ≤ bindingLevel expr) : parenthesized required expr tokens = tokens := by
  simp [parenthesized, Nat.not_lt.mpr fits]

/-- The printed form with parentheses for a context of some level. -/
def printed (required : Nat) (expr : Expr) : List Token := parenthesized required expr (print expr)

private theorem printed_next {required : Nat} (expr : Expr) :
    (printed required expr).length ≤ (printed (required + 1) expr).length := by
  simp only [printed, parenthesized_length]
  split <;> split <;> omega

private theorem printed_binary (op : BinaryOp) (left right : Expr) :
    (print (.binary op left right)).length =
      (printed (operandLevels op).1 left).length + (printed (operandLevels op).2 right).length + 1 := by
  simp only [print, printed, List.length_append, List.length_cons]
  omega

private theorem comparing_levels {op : BinaryOp} {type : TokenType} (compared : comparisonOp type = some op) :
    operandLevels op = (4, 4) ∧ ∀ left right, bindingLevel (.binary op left right) = 3 := by
  unfold comparisonOp at compared
  split at compared <;> cases compared <;> exact ⟨rfl, fun _ _ => rfl⟩

mutual
theorem OrExpr.shortest {tokens : List Token} {expr : Expr} : OrExpr tokens expr →
    (printed 0 expr).length ≤ tokens.length
  | .single derived => (printed_next expr).trans derived.shortest
  | @OrExpr.more _ _ left right _ first _ last => by
    have leading := first.shortest
    have trailing := last.shortest
    rw [printed, parenthesized_fits (by simp), printed_binary]
    simp only [operandLevels, List.length_append, List.length_cons]
    omega

theorem AndExpr.shortest {tokens : List Token} {expr : Expr} : AndExpr tokens expr →
    (printed 1 expr).length ≤ tokens.length
  | .single derived => (printed_next expr).trans derived.shortest
  | @AndExpr.more _ _ left right _ first _ last => by
    have leading := first.shortest
    have trailing := last.shortest
    rw [printed, parenthesized_fits (by simp [bindingLevel]), printed_binary]
    simp only [operandLevels, List.length_append, List.length_cons]
    omega

theorem NotExpr.shortest {tokens : List Token} {expr : Expr} : NotExpr tokens expr →
    (printed 2 expr).length ≤ tokens.length
  | @NotExpr.not _ child _ _ derived => by
    have inner := derived.shortest
    rw [printed, parenthesized_fits (by simp [bindingLevel])]
    simp only [print, List.length_cons]
    exact Nat.succ_le_succ inner
  | .comparison derived => (printed_next expr).trans derived.shortest

theorem Comparison.shortest {tokens : List Token} {expr : Expr} : Comparison tokens expr →
    (printed 3 expr).length ≤ tokens.length
  | .bare derived => (printed_next expr).trans derived.shortest
  | @Comparison.compare _ _ left right op _ first compared last => by
    have leading := first.shortest
    have trailing := last.shortest
    obtain ⟨levels, level⟩ := comparing_levels compared
    rw [printed, parenthesized_fits (level left right).ge, printed_binary, levels]
    simp only [List.length_append, List.length_cons]
    omega

theorem Primary.shortest {tokens : List Token} {expr : Expr} : Primary tokens expr →
    (printed 4 expr).length ≤ tokens.length
  | .literal _ => by simp [printed, parenthesized, bindingLevel, print]
  | .property _ => by simp [printed, parenthesized, bindingLevel, print]
  | .callEmpty _ _ _ => by simp [printed, parenthesized, bindingLevel, print, printArgs]
  | @Primary.call _ args _ _ _ _ _ derived _ => by
    have inner := derived.shortest
    rw [printed, parenthesized_fits (by simp [bindingLevel])]
    simp only [print, List.length_cons, List.length_append]
    omega
  | @Primary.group _ expr _ _ _ derived _ => by
    have inner := derived.shortest
    simp only [printed, parenthesized_length, List.length_cons, List.length_append] at inner ⊢
    split <;> simp at inner ⊢ <;> omega

theorem Args.shortest {tokens : List Token} {args : List Expr} : Args tokens args →
    (printArgs args).length ≤ tokens.length
  | @Args.last _ expr derived => by
    simpa [printed, parenthesized, printArgs] using derived.shortest
  | @Args.more _ _ expr args _ first _ rest => by
    have leading := first.shortest
    have trailing := rest.shortest
    simp only [printed, parenthesized, Nat.not_lt_zero, ite_false] at leading
    cases args with
    | nil => cases rest
    | cons next others =>
      simp only [printArgs, List.length_append, List.length_cons] at trailing ⊢
      omega
end

private theorem parse_front {token last : Token} (front : List Token)
    (inner : ∀ other ∈ token :: front, other.type ≠ .end) :
    parse (token :: front ++ [last]) = (do
      match ← parseOr (enough (token :: front ++ [last])) (token :: front ++ [last]) with
      | (_, []) => .error .undefined
      | (expr, next :: _) => if next.type = .end then .ok expr else .error (unexpected next)) := by
  have open' : token.type ≠ .end := inner token (by simp)
  exact if_neg open'

theorem parse_sound {front : List Token} {last : Token} (inner : ∀ token ∈ front, token.type ≠ .end)
    (ended : last.type = .end) {expr : Expr} (parsed : parse (front ++ [last]) = .ok expr) : OrExpr front expr := by
  cases front with
  | nil => simp [parse, ended] at parsed
  | cons token front =>
    rw [parse_front front inner] at parsed
    obtain ⟨⟨result, rest⟩, found, done⟩ := bind_ok parsed
    cases rest with
    | nil => cases done
    | cons next rest =>
      simp only at done
      split at done
      next final =>
        cases done
        obtain ⟨used, same, derived⟩ := (sound _).or _ _ _ found
        have whole : Ended (used ++ next :: rest) := same ▸ ended_append (token :: front) last ended inner
        have alone : rest = [] := by simpa [Ended, final] using whole.after derived.shape.open'
        subst alone
        obtain ⟨rfl, -⟩ := List.append_inj' same rfl
        exact derived
      next => cases done

private theorem parse_complete {front : List Token} {last : Token} (inner : ∀ token ∈ front, token.type ≠ .end)
    (ended : last.type = .end) {expr : Expr} (derived : OrExpr front expr) : parse (front ++ [last]) = .ok expr := by
  obtain ⟨token, rest, rfl, -⟩ := derived.shape.start
  have ends : EndsOr last := by simp [EndsOr, EndsAnd, EndsComparison, EndsPrimary, comparisonOp, ended]
  have found := (derived.reaches (enough (token :: rest ++ [last])) last [] ends.1).agrees
    (orLoop_done · expr last [] ends.2)
  have read := found.eq (parseOr_enough _ (ended_append _ last ended inner))
  rw [parse_front rest inner, read, ok_bind]
  simp [ended]

/-- The parser gives back what was printed. -/
theorem parse_print (expr : Expr) {last : Token} (ended : last.type = .end) : parse (print expr ++ [last]) = .ok expr := by
  have derived : OrExpr (print expr) expr := (print_derived expr).lift (Nat.zero_le _)
  exact parse_complete derived.shape.open' ended derived

/-- On token lists that end in END the parser accepts exactly the derivable ones
and returns the derivation's tree. Printing a tree gives the shortest list that
derives it, and parsing gives the tree back. -/
theorem parse_exact (front : List Token) (last : Token) (inner : ∀ token ∈ front, token.type ≠ .end)
    (ended : last.type = .end) (expr : Expr) :
    (parse (front ++ [last]) = .ok expr ↔ OrExpr front expr) ∧
      parse (print expr ++ [last]) = .ok expr ∧
      ∀ other, OrExpr other expr → (print expr).length ≤ other.length := by
  refine ⟨⟨parse_sound inner ended, parse_complete inner ended⟩, parse_print expr ended, ?_⟩
  intro other shown
  simpa [printed, parenthesized] using shown.shortest

/-- `not (a or b) and f(c)` -/
private def notEither : Expr :=
  .binary .and (.unary .not (.binary .or (.property "a".toList) (.property "b".toList))) (.functionCall "f".toList [.property "c".toList])

theorem parse_exact_call :
    print notEither = [notToken, opening, nameToken "a".toList, opToken .or, nameToken "b".toList, closing, opToken .and,
        nameToken "f".toList, opening, nameToken "c".toList, closing] ∧
      parse (print notEither ++ [({ type := .end } : Token)]) = .ok notEither ∧ OrExpr (print notEither) notEither ∧
      ∀ other, OrExpr other notEither → 11 ≤ other.length := by
  have exact := parse_exact (print notEither) { type := .end } (by decide) rfl notEither
  exact ⟨rfl, exact.2.1, exact.1.mp exact.2.1, exact.2.2⟩

end DuckdbOdata.FilterGrammar
