import DuckdbOdata.Foundation.SqlLexer

/-! SQL conditions by operator precedence: OR below AND below NOT below the null
tests below the comparisons, which do not associate. The parser is a shift-reduce
machine that reads one token after the other; every open parenthesis has a level
with the operators still waiting for their right operand. -/

namespace Sql
open Text

inductive Tree
  | column (name : Str)
  | string (value : Str)
  | number (negative : Bool) (digits : Str)
  | word (name : Str)
  | cast (value : Tree) (type : List Token)
  | call (name : Str) (args : List Tree)
  | compare (symbol : Str) (left right : Tree)
  | nullTest (negated : Bool) (operand : Tree)
  | not (operand : Tree)
  | and (left right : Tree)
  | or (left right : Tree)

/-- The left side of a comparison that waits for its right operand. -/
abbrev Slot := Option (Tree × Str)

/-- Where the machine stands at the innermost level. After an operand,
`compared` says that its last operator is a comparison. -/
inductive Current
  | expecting (slot : Slot)
  | minus (slot : Slot)
  | named (slot : Slot) (name : Str)
  | operand (tree : Tree) (compared : Bool)
  | testing (tree : Tree) (negated : Bool)

structure Level where
  disjunct : Option Tree := none
  conjunct : Option Tree := none
  nots : Nat := 0
  current : Current := .expecting none

/-- What an open parenthesis belongs to; arguments are kept in reverse. -/
inductive Opening
  | group
  | call (name : Str) (args : List Tree)
  | cast

/-- The levels from the innermost outwards. While the type of a cast is read,
`depth` counts its open parentheses. -/
inductive State
  | parsing (level : Level) (outer : List (Opening × Level))
  | typing (value : Tree) (depth : Nat) (type : List Token) (outer : List (Opening × Level))

/-- An operand in its slot. -/
def feed (slot : Slot) (tree : Tree) : Current :=
  match slot with
  | none => .operand tree false
  | some (left, symbol) => .operand (.compare symbol left tree) true

def negate : Nat → Tree → Tree
  | 0, tree => tree
  | nots + 1, tree => .not (negate nots tree)

/-- The conjunction that ends with `tree`. -/
def Level.conjoin (level : Level) (tree : Tree) : Tree :=
  match level.conjunct with
  | none => negate level.nots tree
  | some left => .and left (negate level.nots tree)

/-- The whole expression of the level, when it ends with `tree`. -/
def Level.whole (level : Level) (tree : Tree) : Tree :=
  match level.disjunct with
  | none => level.conjoin tree
  | some left => .or left (level.conjoin tree)

def isComparison (symbol : Str) : Bool := ["=", "<>", "<", "<=", ">", ">="].any (·.toList = symbol)

def isConstant (name : Str) : Bool := ["TRUE", "FALSE", "NULL"].any (·.toList = name)

/-- An operand for the level that expects one. -/
def supply (tree : Tree) : List (Opening × Level) → Option State
  | [] => none
  | (_, level) :: outer =>
    match level.current with
    | .expecting slot => some (.parsing { level with current := feed slot tree } outer)
    | .named slot _ => some (.parsing { level with current := feed slot tree } outer)
    | _ => none

/-- The closing parenthesis of the innermost level, whose expression is `tree`. -/
def close (tree : Tree) : List (Opening × Level) → Option State
  | [] => none
  | (.group, level) :: outer => supply tree ((.group, level) :: outer)
  | (.call name args, level) :: outer => supply (.call name (args.reverse ++ [tree])) ((.group, level) :: outer)
  | (.cast, _) :: _ => none

/-- A token where an operand is expected. -/
def stepExpecting (level : Level) (outer : List (Opening × Level)) (slot : Slot) : Token → Option State
  | .ident name => some (.parsing { level with current := feed slot (.column name) } outer)
  | .str value => some (.parsing { level with current := feed slot (.string value) } outer)
  | .num digits => some (.parsing { level with current := feed slot (.number false digits) } outer)
  | .op symbol => if symbol = ['-'] then some (.parsing { level with current := .minus slot } outer) else none
  | .word name =>
    if isConstant name then some (.parsing { level with current := feed slot (.word name) } outer)
    else if name = "NOT".toList then
      if slot = none then some (.parsing { level with nots := level.nots + 1 } outer) else none
    else some (.parsing { level with current := .named slot name } outer)
  | .punct c =>
    if c = '(' then some (.parsing {} ((.group, level) :: outer))
    else if c = ')' then
      match outer with
      | (.call name [], calling) :: outer => supply (.call name []) ((.group, calling) :: outer)
      | _ => none
    else none
  | .comment => none

/-- A token after an operand. -/
def stepOperand (level : Level) (outer : List (Opening × Level)) (tree : Tree) (compared : Bool) : Token → Option State
  | .op symbol =>
    if isComparison symbol && !compared then some (.parsing { level with current := .expecting (some (tree, symbol)) } outer)
    else none
  | .word name =>
    if name = "IS".toList then some (.parsing { level with current := .testing tree false } outer)
    else if name = "AND".toList then
      some (.parsing { level with conjunct := some (level.conjoin tree), nots := 0, current := .expecting none } outer)
    else if name = "OR".toList then some (.parsing { disjunct := some (level.whole tree) } outer)
    else if name = "AS".toList then
      match outer with
      | (.cast, casting) :: outer => some (.typing (level.whole tree) 0 [] ((.cast, casting) :: outer))
      | _ => none
    else none
  | .punct c =>
    if c = ')' then close (level.whole tree) outer
    else if c = ',' then
      match outer with
      | (.call name args, calling) :: outer => some (.parsing {} ((.call name (level.whole tree :: args), calling) :: outer))
      | _ => none
    else none
  | _ => none

/-- A token inside a null test. -/
def stepTesting (level : Level) (outer : List (Opening × Level)) (tree : Tree) (negated : Bool) : Token → Option State
  | .word name =>
    if name = "NULL".toList then some (.parsing { level with current := .operand (.nullTest negated tree) false } outer)
    else if name = "NOT".toList ∧ negated = false then some (.parsing { level with current := .testing tree true } outer)
    else none
  | _ => none

def openingOf (name : Str) : Opening := if name = "CAST".toList then .cast else .call name []

/-- A token of a cast's type. -/
def stepTyping (value : Tree) (depth : Nat) (type : List Token) (outer : List (Opening × Level)) (token : Token) : Option State :=
  if token = .punct ')' ∧ depth = 0 then if type = [] then none else supply (.cast value type) outer
  else if token = .punct ')' then some (.typing value (depth - 1) (type ++ [token]) outer)
  else if token = .punct '(' then some (.typing value (depth + 1) (type ++ [token]) outer)
  else some (.typing value depth (type ++ [token]) outer)

def step : State → Token → Option State
  | .typing value depth type outer, token => stepTyping value depth type outer token
  | .parsing level outer, token =>
    match level.current with
    | .expecting slot => stepExpecting level outer slot token
    | .operand tree compared => stepOperand level outer tree compared token
    | .testing tree negated => stepTesting level outer tree negated token
    | .minus slot =>
      match token with
      | .num digits => some (.parsing { level with current := feed slot (.number true digits) } outer)
      | _ => none
    | .named _ name => if token = .punct '(' then some (.parsing {} ((openingOf name, level) :: outer)) else none

def run (state : State) (tokens : List Token) : Option State := tokens.foldlM step state

/-- The tree of a complete expression. -/
def State.result : State → Option Tree
  | .parsing level [] =>
    match level.current with
    | .operand tree _ => some (level.whole tree)
    | _ => none
  | _ => none

def parse (tokens : List Token) : Option Tree := (run (.parsing {} []) tokens).bind State.result

@[simp] theorem run_nil (state : State) : run state [] = some state := rfl

@[simp] theorem run_cons (state : State) (token : Token) (tokens : List Token) :
    run state (token :: tokens) = (step state token).bind (run · tokens) := by
  simp [run, List.foldlM_cons]

theorem run_append (state : State) (first last : List Token) :
    run state (first ++ last) = (run state first).bind (run · last) := by
  simp [run, List.foldlM_append]

/-- Parentheses that close in order. -/
def depthAfter : Nat → List Token → Option Nat
  | depth, [] => some depth
  | depth, token :: tokens =>
    if token = .punct ')' then if depth = 0 then none else depthAfter (depth - 1) tokens
    else if token = .punct '(' then depthAfter (depth + 1) tokens
    else depthAfter depth tokens

def Balanced (tokens : List Token) : Prop := tokens ≠ [] ∧ depthAfter 0 tokens = some 0

instance (tokens : List Token) : Decidable (Balanced tokens) := inferInstanceAs (Decidable (_ ∧ _))

/-- The type of a cast ends at the parenthesis that closes the cast. -/
theorem run_typing (value : Tree) (depth : Nat) (type : List Token) (outer : List (Opening × Level)) (tokens : List Token)
    {last : Nat} (ends : depthAfter depth tokens = some last) :
    run (.typing value depth type outer) tokens = some (.typing value last (type ++ tokens) outer) := by
  induction tokens generalizing depth type with
  | nil =>
    cases ends
    simp
  | cons token tokens ih =>
    simp only [depthAfter] at ends
    rw [run_cons]
    by_cases closing : token = .punct ')'
    · rw [if_pos closing] at ends
      by_cases outermost : depth = 0
      · simp [outermost] at ends
      · rw [if_neg outermost] at ends
        have stepped : step (.typing value depth type outer) token = some (.typing value (depth - 1) (type ++ [token]) outer) := by
          simp [step, stepTyping, closing, outermost]
        rw [stepped, Option.bind_some, ih (depth - 1) (type ++ [token]) ends]
        simp
    · rw [if_neg closing] at ends
      by_cases opening : token = .punct '('
      · rw [if_pos opening] at ends
        have stepped : step (.typing value depth type outer) token = some (.typing value (depth + 1) (type ++ [token]) outer) := by
          simp [step, stepTyping, opening]
        rw [stepped, Option.bind_some, ih (depth + 1) (type ++ [token]) ends]
        simp
      · rw [if_neg opening] at ends
        have stepped : step (.typing value depth type outer) token = some (.typing value depth (type ++ [token]) outer) := by
          simp [step, stepTyping, closing, opening]
        rw [stepped, Option.bind_some, ih depth (type ++ [token]) ends]
        simp

end Sql
