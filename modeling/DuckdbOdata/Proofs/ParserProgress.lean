import DuckdbOdata.Parser.IndexedParser
import DuckdbOdata.Proofs.FilterErrors

/-! The index of the `$filter` parser: it stays inside the token list, never
passes END, and has advanced wherever a function or a loop is entered again. One
weight of a call, which every nested call lowers, gives the last of these and the
fuel that suffices. -/

namespace DuckdbOdata.ParserProgress
open Text Recorded FilterGrammar Indexed.FilterParser
open DuckdbOdata.FilterParser (literalOf comparisonOp unexpected enough)

/-- Calls that can follow one another before a token is consumed, by how many still follow. -/
def room : Routine → Nat
  | .argLoop => 6
  | .parseOr => 5
  | .parseAnd => 4
  | .parseNot => 3
  | .parseComparison => 2
  | .parsePrimary | .orLoop | .andLoop => 1

def weight (tokens : List Token) (call : Call) : Nat := 7 * (tokens.length - call.pos) + room call.routine

variable {tokens : List Token} {fuel : Nat} {call : Call} {opened : List Call} {routine next : Routine} {pos later : Nat}

theorem room_le (routine : Routine) : room routine ≤ 6 := by cases routine <;> decide

/-- Nothing is consumed before the next call. -/
theorem weight_same (smaller : room next < room routine) : weight tokens ⟨next, pos⟩ < weight tokens ⟨routine, pos⟩ :=
  Nat.add_lt_add_left smaller _

theorem weight_later (inside : later < tokens.length) (advanced : pos < later) :
    weight tokens ⟨next, later⟩ < weight tokens ⟨routine, pos⟩ := by
  have bound := room_le next
  simp only [weight]
  omega

/-- The same function is open at smaller indices only. -/
theorem lighter_pos {other : Call} (same : other.routine = call.routine) (lighter : weight tokens call < weight tokens other) :
    other.pos < call.pos := by
  simp only [weight, same] at lighter
  omega

/-- What the record of a parse may say. -/
def Orderly (tokens : List Token) : Visit → Prop
  | .read pos => pos < tokens.length
  | .consume pos => ∃ token, tokens[pos]? = some token ∧ token.type ≠ .end
  | .enter call opened => call.pos < tokens.length ∧ ∀ other ∈ opened, other.routine = call.routine → other.pos < call.pos

def Exception (failure : Exn) : Prop := ∃ message, failure = .odataParse message

/-- An orderly run that ends between `floor` and the last token. -/
def Advances (tokens : List Token) (floor : Nat) (run : Parsing (α × Nat)) : Prop :=
  Ensures (Orderly tokens) Exception (fun result => floor ≤ result.2 ∧ result.2 < tokens.length) run

/-- What holds when a call is made. -/
structure Ready (tokens : List Token) (fuel : Nat) (call : Call) (opened : List Call) : Prop where
  inside : call.pos < tokens.length
  lighter : ∀ other ∈ opened, weight tokens call < weight tokens other
  fuelled : weight tokens call ≤ fuel

theorem Ready.within (ready : Ready tokens fuel ⟨routine, pos⟩ opened) : pos < tokens.length := ready.inside

theorem Ready.push {other : Call} (ready : Ready tokens (fuel + 1) call opened) (inside : other.pos < tokens.length)
    (lighter : weight tokens other < weight tokens call) : Ready tokens fuel other (call :: opened) where
  inside := inside
  lighter := by
    intro before member
    rcases List.mem_cons.mp member with rfl | member
    · exact lighter
    · exact lighter.trans (ready.lighter before member)
  fuelled := Nat.lt_succ_iff.mp (lighter.trans_le ready.fuelled)

theorem Ready.same (ready : Ready tokens (fuel + 1) ⟨routine, pos⟩ opened) (smaller : room next < room routine) :
    Ready tokens fuel ⟨next, pos⟩ (⟨routine, pos⟩ :: opened) :=
  ready.push ready.inside (weight_same smaller)

theorem Ready.beyond (ready : Ready tokens (fuel + 1) ⟨routine, pos⟩ opened) (inside : later < tokens.length)
    (advanced : pos < later) : Ready tokens fuel ⟨next, later⟩ (⟨routine, pos⟩ :: opened) :=
  ready.push inside (weight_later inside advanced)

theorem not_ready (ready : Ready tokens 0 call opened) : False := by
  have inside := ready.inside
  have fuelled := ready.fuelled
  simp only [weight] at fuelled
  omega

/-- A token that is not END has another after it. -/
theorem ended_inside (ended : Ended tokens) {token : Token} (at' : tokens[pos]? = some token) (type : token.type ≠ .end) :
    pos + 1 < tokens.length := by
  induction tokens generalizing pos with
  | nil => cases at'
  | cons head tail ih =>
    cases pos with
    | zero =>
      cases at'
      have more : tail ≠ [] := by
        rintro rfl
        exact (ended.tail type).elim
      have := List.length_pos_iff.mpr more
      rw [List.length_cons]
      omega
    | succ pos =>
      have inner : head.type ≠ .end := by
        intro final
        have alone : tail = [] := by simpa [Ended, final] using ended
        simp [alone] at at'
      have := ih (ended.tail inner) at'
      rw [List.length_cons]
      omega

theorem enter_ensures (ready : Ready tokens fuel ⟨routine, pos⟩ opened) {each : α → Prop} {body : List Call → Parsing α}
    (rest : Ensures (Orderly tokens) Exception each (body (⟨routine, pos⟩ :: opened))) :
    Ensures (Orderly tokens) Exception each (enter routine pos opened >>= body) := by
  have entered : Ensures (Orderly tokens) Exception (· = ⟨routine, pos⟩ :: opened) (enter routine pos opened) := by
    refine .bind (.note ⟨ready.within, ?_⟩) fun _ _ => .pure rfl
    intro other member same
    exact lighter_pos same (ready.lighter other member)
  refine .bind entered ?_
  rintro _ rfl
  exact rest

theorem peek_ensures (inside : pos < tokens.length) :
    Ensures (Orderly tokens) Exception (fun token => tokens[pos]? = some token) (peek tokens pos) := by
  refine .bind (.note inside) fun _ _ => ?_
  rw [List.getElem?_eq_getElem inside]
  exact .pure rfl

theorem advance_ensures {token : Token} (at' : tokens[pos]? = some token) (type : token.type ≠ .end) :
    Ensures (Orderly tokens) Exception (· = pos + 1) (advance pos) :=
  .bind (.note ⟨token, at', type⟩) fun _ _ => .pure rfl

theorem accept_ensures (ended : Ended tokens) (inside : pos < tokens.length) {type : TokenType} (inner : type ≠ .end) :
    Ensures (Orderly tokens) Exception (fun matched => ∀ after ∈ matched, after = pos + 1 ∧ after < tokens.length)
      (accept tokens type pos) := by
  refine .bind (peek_ensures inside) fun token at' => ?_
  split
  next same =>
    have open' : token.type ≠ .end := same ▸ inner
    refine .bind (advance_ensures at' open') ?_
    rintro _ rfl
    refine .pure ?_
    rintro _ ⟨rfl⟩
    exact ⟨rfl, ended_inside ended at' open'⟩
  next => exact .pure nofun

theorem expect_ensures (ended : Ended tokens) (inside : pos < tokens.length) {type : TokenType} (inner : type ≠ .end)
    {what : Str} : Ensures (Orderly tokens) Exception (fun after => after = pos + 1 ∧ after < tokens.length)
      (expect tokens type what pos) := by
  refine .bind (peek_ensures inside) fun token at' => ?_
  split
  next same =>
    have open' : token.type ≠ .end := same ▸ inner
    refine (advance_ensures at' open').weaken ?_
    rintro _ rfl
    exact ⟨rfl, ended_inside ended at' open'⟩
  next => exact .bind (peek_ensures inside) fun found _ => .fail ⟨_, rfl⟩

/-- A function that parses an expression consumes a token of it; a loop may end where it starts. -/
structure Progress (tokens : List Token) (fuel : Nat) : Prop where
  or : ∀ opened pos, Ready tokens fuel ⟨.parseOr, pos⟩ opened → Advances tokens (pos + 1) (parseOr tokens fuel opened pos)
  orRest : ∀ opened left pos, Ready tokens fuel ⟨.orLoop, pos⟩ opened → Advances tokens pos (orLoop tokens fuel opened left pos)
  and : ∀ opened pos, Ready tokens fuel ⟨.parseAnd, pos⟩ opened → Advances tokens (pos + 1) (parseAnd tokens fuel opened pos)
  andRest : ∀ opened left pos, Ready tokens fuel ⟨.andLoop, pos⟩ opened → Advances tokens pos (andLoop tokens fuel opened left pos)
  not : ∀ opened pos, Ready tokens fuel ⟨.parseNot, pos⟩ opened → Advances tokens (pos + 1) (parseNot tokens fuel opened pos)
  comparison : ∀ opened pos, Ready tokens fuel ⟨.parseComparison, pos⟩ opened →
    Advances tokens (pos + 1) (parseComparison tokens fuel opened pos)
  primary : ∀ opened pos, Ready tokens fuel ⟨.parsePrimary, pos⟩ opened →
    Advances tokens (pos + 1) (parsePrimary tokens fuel opened pos)
  args : ∀ opened pos, Ready tokens fuel ⟨.argLoop, pos⟩ opened → Advances tokens (pos + 1) (argLoop tokens fuel opened pos)

theorem Advances.weaken {floor lower : Nat} {run : Parsing (α × Nat)} (advances : Advances tokens floor run)
    (below : lower ≤ floor) : Advances tokens lower run :=
  Ensures.weaken advances fun _ bounds => ⟨below.trans bounds.1, bounds.2⟩

/-- What is parsed next starts where the first part ended. -/
theorem Advances.bind {floor lower : Nat} {run : Parsing (α × Nat)} {rest : α × Nat → Parsing (β × Nat)}
    (advances : Advances tokens floor run)
    (continued : ∀ value pos, floor ≤ pos → pos < tokens.length → Advances tokens lower (rest (value, pos))) :
    Advances tokens lower (run >>= rest) :=
  Ensures.bind advances fun result bounds => continued result.1 result.2 bounds.1 bounds.2

theorem advances_pure {floor : Nat} {value : α} (above : floor ≤ pos) (inside : pos < tokens.length) :
    Advances tokens floor (pure (value, pos)) := .pure ⟨above, inside⟩

namespace Progress

theorem zero : Progress tokens 0 := by
  constructor <;> exact fun _ _ => by
    intros
    exact (not_ready ‹_›).elim

private theorem parseOr (progress : Progress tokens fuel) (opened : List Call) (pos : Nat)
    (ready : Ready tokens (fuel + 1) ⟨.parseOr, pos⟩ opened) :
    Advances tokens (pos + 1) (parseOr tokens (fuel + 1) opened pos) := by
  rw [Indexed.FilterParser.parseOr]
  refine enter_ensures ready ?_
  refine (progress.and _ pos (ready.same (by decide))).bind fun left after consumed inside => ?_
  exact (progress.orRest _ left after (ready.beyond inside consumed)).weaken consumed

private theorem orLoop (ended : Ended tokens) (progress : Progress tokens fuel) (opened : List Call) (left : Expr) (pos : Nat)
    (ready : Ready tokens (fuel + 1) ⟨.orLoop, pos⟩ opened) : Advances tokens pos (orLoop tokens (fuel + 1) opened left pos) := by
  rw [Indexed.FilterParser.orLoop]
  refine enter_ensures ready ?_
  refine .bind (accept_ensures ended ready.within (by decide)) fun matched consumed => ?_
  cases matched with
  | none => exact advances_pure le_rfl ready.within
  | some next =>
    obtain ⟨rfl, inside⟩ := consumed next rfl
    refine (progress.and _ _ (ready.beyond inside (by omega))).bind fun right after more inside => ?_
    exact (progress.orRest _ _ after (ready.beyond inside (by omega))).weaken (by omega)

private theorem parseAnd (progress : Progress tokens fuel) (opened : List Call) (pos : Nat)
    (ready : Ready tokens (fuel + 1) ⟨.parseAnd, pos⟩ opened) :
    Advances tokens (pos + 1) (parseAnd tokens (fuel + 1) opened pos) := by
  rw [Indexed.FilterParser.parseAnd]
  refine enter_ensures ready ?_
  refine (progress.not _ pos (ready.same (by decide))).bind fun left after consumed inside => ?_
  exact (progress.andRest _ left after (ready.beyond inside consumed)).weaken consumed

private theorem andLoop (ended : Ended tokens) (progress : Progress tokens fuel) (opened : List Call) (left : Expr) (pos : Nat)
    (ready : Ready tokens (fuel + 1) ⟨.andLoop, pos⟩ opened) : Advances tokens pos (andLoop tokens (fuel + 1) opened left pos) := by
  rw [Indexed.FilterParser.andLoop]
  refine enter_ensures ready ?_
  refine .bind (accept_ensures ended ready.within (by decide)) fun matched consumed => ?_
  cases matched with
  | none => exact advances_pure le_rfl ready.within
  | some next =>
    obtain ⟨rfl, inside⟩ := consumed next rfl
    refine (progress.not _ _ (ready.beyond inside (by omega))).bind fun right after more inside => ?_
    exact (progress.andRest _ _ after (ready.beyond inside (by omega))).weaken (by omega)

private theorem parseNot (ended : Ended tokens) (progress : Progress tokens fuel) (opened : List Call) (pos : Nat)
    (ready : Ready tokens (fuel + 1) ⟨.parseNot, pos⟩ opened) :
    Advances tokens (pos + 1) (parseNot tokens (fuel + 1) opened pos) := by
  rw [Indexed.FilterParser.parseNot]
  refine enter_ensures ready ?_
  refine .bind (accept_ensures ended ready.within (by decide)) fun matched consumed => ?_
  cases matched with
  | none => exact progress.comparison _ pos (ready.same (by decide))
  | some next =>
    obtain ⟨rfl, inside⟩ := consumed next rfl
    refine (progress.not _ _ (ready.beyond inside (by omega))).bind fun child after more inside => ?_
    exact advances_pure (by omega) inside

private theorem parseComparison (ended : Ended tokens) (progress : Progress tokens fuel) (opened : List Call) (pos : Nat)
    (ready : Ready tokens (fuel + 1) ⟨.parseComparison, pos⟩ opened) :
    Advances tokens (pos + 1) (parseComparison tokens (fuel + 1) opened pos) := by
  rw [Indexed.FilterParser.parseComparison]
  refine enter_ensures ready ?_
  refine (progress.primary _ pos (ready.same (by decide))).bind fun left after consumed inside => ?_
  refine Ensures.bind (peek_ensures inside) fun token at' => ?_
  cases compared : comparisonOp token.type with
  | none => exact advances_pure consumed inside
  | some op =>
    have operator := comparisonOp_open compared
    have inside := ended_inside ended at' operator
    refine Ensures.bind (advance_ensures at' operator) ?_
    rintro _ rfl
    refine (progress.primary _ _ (ready.beyond inside (by omega))).bind fun right last more inside => ?_
    exact advances_pure (by omega) inside

/-- A literal is not END. -/
theorem literalOf_inner {token : Token} {value : LiteralExpr} (literal : literalOf token = some value) : token.type ≠ .end := by
  rcases literalOf_type literal with type | type | type | type | type <;> simp [type]

private theorem parsePrimary (ended : Ended tokens) (progress : Progress tokens fuel) (opened : List Call) (pos : Nat)
    (ready : Ready tokens (fuel + 1) ⟨.parsePrimary, pos⟩ opened) :
    Advances tokens (pos + 1) (parsePrimary tokens (fuel + 1) opened pos) := by
  rw [Indexed.FilterParser.parsePrimary]
  refine enter_ensures ready ?_
  refine .bind (peek_ensures ready.within) fun tok at' => ?_
  cases literal : literalOf tok with
  | some value =>
    have inner := literalOf_inner literal
    refine Ensures.bind (advance_ensures at' inner) ?_
    rintro _ rfl
    exact advances_pure le_rfl (ended_inside ended at' inner)
  | none =>
    dsimp only
    split
    next opening =>
      have inner : tok.type ≠ .end := by simp [opening]
      have inside := ended_inside ended at' inner
      refine Ensures.bind (advance_ensures at' inner) ?_
      rintro _ rfl
      refine (progress.or _ _ (ready.beyond inside (by omega))).bind fun expr after more inside => ?_
      refine Ensures.bind (expect_ensures ended inside (by decide)) ?_
      rintro _ ⟨rfl, inside⟩
      exact advances_pure (by omega) inside
    next identifier =>
      have inner : tok.type ≠ .end := by simp [identifier]
      have inside := ended_inside ended at' inner
      refine Ensures.bind (advance_ensures at' inner) ?_
      rintro _ rfl
      refine Ensures.bind (accept_ensures ended inside (by decide)) fun matched consumed => ?_
      cases matched with
      | none => exact advances_pure le_rfl inside
      | some first =>
        obtain ⟨rfl, inside⟩ := consumed first rfl
        refine Ensures.bind (accept_ensures ended inside (by decide)) fun closed consumed => ?_
        cases closed with
        | some last =>
          obtain ⟨rfl, inside⟩ := consumed last rfl
          exact advances_pure (by omega) inside
        | none =>
          refine (progress.args _ _ (ready.beyond inside (by omega))).bind fun args after more inside => ?_
          exact advances_pure (by omega) inside
    next => exact .fail ⟨_, rfl⟩

private theorem argLoop (ended : Ended tokens) (progress : Progress tokens fuel) (opened : List Call) (pos : Nat)
    (ready : Ready tokens (fuel + 1) ⟨.argLoop, pos⟩ opened) :
    Advances tokens (pos + 1) (argLoop tokens (fuel + 1) opened pos) := by
  rw [Indexed.FilterParser.argLoop]
  refine enter_ensures ready ?_
  refine (progress.or _ pos (ready.same (by decide))).bind fun arg after consumed inside => ?_
  refine Ensures.bind (accept_ensures ended inside (by decide)) fun matched closed => ?_
  cases matched with
  | some last =>
    obtain ⟨rfl, inside⟩ := closed last rfl
    exact advances_pure (by omega) inside
  | none =>
    refine Ensures.bind (expect_ensures ended inside (by decide)) ?_
    rintro _ ⟨rfl, inside⟩
    refine (progress.args _ _ (ready.beyond inside (by omega))).bind fun args last more inside => ?_
    exact advances_pure (by omega) inside

end Progress

theorem progress (ended : Ended tokens) (fuel : Nat) : Progress tokens fuel := by
  induction fuel with
  | zero => exact .zero
  | succ fuel ih =>
    exact ⟨ih.parseOr, ih.orLoop ended, ih.parseAnd, ih.andLoop ended, ih.parseNot ended, ih.parseComparison ended,
      ih.parsePrimary ended, ih.argLoop ended⟩

theorem parse_ensures (ended : Ended tokens) (fuelled : enough tokens ≤ fuel) :
    Ensures (Orderly tokens) Exception (fun _ => True) (parse tokens fuel) := by
  have start : 0 < tokens.length := by
    cases tokens with
    | nil => exact ended.elim
    | cons head tail => exact Nat.succ_pos _
  refine .bind (peek_ensures start) fun first _ => ?_
  split
  next => exact .fail ⟨_, rfl⟩
  next =>
    have ready : Ready tokens fuel ⟨.parseOr, 0⟩ [] := by
      refine ⟨start, nofun, ?_⟩
      simp only [weight, room, enough] at fuelled ⊢
      omega
    refine .bind ((progress ended fuel).or [] 0 ready) fun result bounds => ?_
    refine .bind (peek_ensures bounds.2) fun last _ => ?_
    split
    next => exact .pure trivial
    next => exact .bind (peek_ensures bounds.2) fun found _ => .fail ⟨_, rfl⟩

/-- One more unit of fuel extends a run that was cut short and leaves any other as it is. -/
structure Grows (tokens : List Token) (fuel : Nat) : Prop where
  or : ∀ opened pos, Extends .undefined (parseOr tokens fuel opened pos) (parseOr tokens (fuel + 1) opened pos)
  orRest : ∀ opened left pos, Extends .undefined (orLoop tokens fuel opened left pos) (orLoop tokens (fuel + 1) opened left pos)
  and : ∀ opened pos, Extends .undefined (parseAnd tokens fuel opened pos) (parseAnd tokens (fuel + 1) opened pos)
  andRest : ∀ opened left pos, Extends .undefined (andLoop tokens fuel opened left pos) (andLoop tokens (fuel + 1) opened left pos)
  not : ∀ opened pos, Extends .undefined (parseNot tokens fuel opened pos) (parseNot tokens (fuel + 1) opened pos)
  comparison : ∀ opened pos,
    Extends .undefined (parseComparison tokens fuel opened pos) (parseComparison tokens (fuel + 1) opened pos)
  primary : ∀ opened pos, Extends .undefined (parsePrimary tokens fuel opened pos) (parsePrimary tokens (fuel + 1) opened pos)
  args : ∀ opened pos, Extends .undefined (argLoop tokens fuel opened pos) (argLoop tokens (fuel + 1) opened pos)

namespace Grows

theorem zero : Grows tokens 0 := by
  constructor <;> intros <;> exact .inl rfl

private theorem parseOr (grows : Grows tokens fuel) (opened : List Call) (pos : Nat) :
    Extends .undefined (parseOr tokens (fuel + 1) opened pos) (parseOr tokens (fuel + 1 + 1) opened pos) := by
  rw [Indexed.FilterParser.parseOr, Indexed.FilterParser.parseOr]
  refine .bind (.refl _) fun opened => ?_
  exact .bind (grows.and opened pos) fun left => grows.orRest opened left.1 left.2

private theorem orLoop (grows : Grows tokens fuel) (opened : List Call) (left : Expr) (pos : Nat) :
    Extends .undefined (orLoop tokens (fuel + 1) opened left pos) (orLoop tokens (fuel + 1 + 1) opened left pos) := by
  rw [Indexed.FilterParser.orLoop, Indexed.FilterParser.orLoop]
  refine .bind (.refl _) fun opened => .bind (.refl _) fun matched => ?_
  cases matched with
  | none => exact .refl _
  | some next => exact .bind (grows.and opened next) fun right => grows.orRest opened _ right.2

private theorem parseAnd (grows : Grows tokens fuel) (opened : List Call) (pos : Nat) :
    Extends .undefined (parseAnd tokens (fuel + 1) opened pos) (parseAnd tokens (fuel + 1 + 1) opened pos) := by
  rw [Indexed.FilterParser.parseAnd, Indexed.FilterParser.parseAnd]
  refine .bind (.refl _) fun opened => ?_
  exact .bind (grows.not opened pos) fun left => grows.andRest opened left.1 left.2

private theorem andLoop (grows : Grows tokens fuel) (opened : List Call) (left : Expr) (pos : Nat) :
    Extends .undefined (andLoop tokens (fuel + 1) opened left pos) (andLoop tokens (fuel + 1 + 1) opened left pos) := by
  rw [Indexed.FilterParser.andLoop, Indexed.FilterParser.andLoop]
  refine .bind (.refl _) fun opened => .bind (.refl _) fun matched => ?_
  cases matched with
  | none => exact .refl _
  | some next => exact .bind (grows.not opened next) fun right => grows.andRest opened _ right.2

private theorem parseNot (grows : Grows tokens fuel) (opened : List Call) (pos : Nat) :
    Extends .undefined (parseNot tokens (fuel + 1) opened pos) (parseNot tokens (fuel + 1 + 1) opened pos) := by
  rw [Indexed.FilterParser.parseNot, Indexed.FilterParser.parseNot]
  refine .bind (.refl _) fun opened => .bind (.refl _) fun matched => ?_
  cases matched with
  | none => exact grows.comparison opened pos
  | some next => exact .bind (grows.not opened next) fun _ => .refl _

private theorem parseComparison (grows : Grows tokens fuel) (opened : List Call) (pos : Nat) :
    Extends .undefined (parseComparison tokens (fuel + 1) opened pos) (parseComparison tokens (fuel + 1 + 1) opened pos) := by
  rw [Indexed.FilterParser.parseComparison, Indexed.FilterParser.parseComparison]
  refine .bind (.refl _) fun opened => .bind (grows.primary opened pos) fun left => .bind (.refl _) fun token => ?_
  cases comparisonOp token.type with
  | none => exact .refl _
  | some op => exact .bind (.refl _) fun after => .bind (grows.primary opened after) fun _ => .refl _

private theorem parsePrimary (grows : Grows tokens fuel) (opened : List Call) (pos : Nat) :
    Extends .undefined (parsePrimary tokens (fuel + 1) opened pos) (parsePrimary tokens (fuel + 1 + 1) opened pos) := by
  rw [Indexed.FilterParser.parsePrimary, Indexed.FilterParser.parsePrimary]
  refine .bind (.refl _) fun opened => .bind (.refl _) fun tok => ?_
  cases literalOf tok with
  | some literal => exact .refl _
  | none =>
    dsimp only
    split
    next => exact .bind (.refl _) fun inner => .bind (grows.or opened inner) fun _ => .refl _
    next =>
      refine .bind (.refl _) fun after => .bind (.refl _) fun matched => ?_
      cases matched with
      | none => exact .refl _
      | some first =>
        refine .bind (.refl _) fun closed => ?_
        cases closed with
        | some last => exact .refl _
        | none => exact .bind (grows.args opened first) fun _ => .refl _
    next => exact .refl _

private theorem argLoop (grows : Grows tokens fuel) (opened : List Call) (pos : Nat) :
    Extends .undefined (argLoop tokens (fuel + 1) opened pos) (argLoop tokens (fuel + 1 + 1) opened pos) := by
  rw [Indexed.FilterParser.argLoop, Indexed.FilterParser.argLoop]
  refine .bind (.refl _) fun opened => .bind (grows.or opened pos) fun arg => .bind (.refl _) fun matched => ?_
  cases matched with
  | some last => exact .refl _
  | none => exact .bind (.refl _) fun after => .bind (grows.args opened after) fun _ => .refl _

end Grows

theorem grows (tokens : List Token) (fuel : Nat) : Grows tokens fuel := by
  induction fuel with
  | zero => exact .zero
  | succ fuel ih =>
    exact ⟨ih.parseOr, ih.orLoop, ih.parseAnd, ih.andLoop, ih.parseNot, ih.parseComparison, ih.parsePrimary, ih.argLoop⟩

theorem parse_grows (tokens : List Token) (fuel : Nat) : Extends .undefined (parse tokens fuel) (parse tokens (fuel + 1)) := by
  refine .bind (.refl _) fun first => ?_
  split
  next => exact .refl _
  next => exact .bind ((grows tokens fuel).or [] 0) fun _ => .refl _

theorem parse_returns (ended : Ended tokens) (fuelled : enough tokens ≤ fuel) : (parse tokens fuel).result ≠ .error .undefined := by
  intro gave
  obtain ⟨message, wrong⟩ := (parse_ensures ended fuelled).error _ gave
  cases wrong

/-- From `enough` on the fuel is no part of the run. -/
theorem parse_fuel (ended : Ended tokens) (fuelled : enough tokens ≤ fuel) : parse tokens fuel = parse tokens (enough tokens) := by
  induction fuel, fuelled using Nat.le_induction with
  | base => rfl
  | succ fuel fuelled ih =>
    rcases parse_grows tokens fuel with gave | same
    · exact (parse_returns ended fuelled gave).elim
    · exact same.trans ih

/-- The two parsers have built the same and stand at the same token. -/
def Same (tokens : List Token) (result : α × Nat) (plain : α × List Token) : Prop := plain = (result.1, tokens.drop result.2)

theorem peek_result {token : Token} (at' : tokens[pos]? = some token) : (peek tokens pos).result = .ok token := by
  simp [peek, at']

/-- The next token is read, or there is none and nothing is left to read. -/
theorem peek_cases (tokens : List Token) (pos : Nat) :
    (tokens.drop pos = [] ∧ (peek tokens pos).result = .error .undefined) ∨
      ∃ token, tokens.drop pos = token :: tokens.drop (pos + 1) ∧ (peek tokens pos).result = .ok token := by
  cases at' : tokens[pos]? with
  | none =>
    refine .inl ⟨List.drop_eq_nil_of_le (List.getElem?_eq_none_iff.mp at'), ?_⟩
    simp [peek, at']
  | some token =>
    obtain ⟨inside, rfl⟩ := List.getElem?_eq_some_iff.mp at'
    exact .inr ⟨_, List.drop_eq_getElem_cons inside, peek_result at'⟩

theorem peek_follows {related : α → β → Prop} {body : Token → Parsing α} (plain : List Token → Except Exn β)
    (missing : plain [] = .error .undefined)
    (found : ∀ token, (peek tokens pos).result = .ok token →
      Follows related (body token) (plain (token :: tokens.drop (pos + 1)))) :
    Follows related (peek tokens pos >>= body) (plain (tokens.drop pos)) := by
  rcases peek_cases tokens pos with ⟨rest, failed⟩ | ⟨token, rest, read⟩
  · rw [rest, missing]
    exact .fail failed
  · rw [rest]
    exact .skip read (found token read)

theorem accept_follows (type : TokenType) (pos : Nat) :
    Follows (fun matched plain => plain = matched.map tokens.drop) (accept tokens type pos)
      (DuckdbOdata.FilterParser.accept type (tokens.drop pos)) := by
  refine peek_follows _ rfl fun token _ => ?_
  rw [DuckdbOdata.FilterParser.accept]
  split
  next => exact .skip rfl (.pure rfl)
  next => exact .pure rfl

theorem expect_follows (type : TokenType) (what : Str) (pos : Nat) :
    Follows (fun after plain => plain = tokens.drop after) (expect tokens type what pos)
      (DuckdbOdata.FilterParser.expect type what (tokens.drop pos)) := by
  refine peek_follows _ rfl fun token read => ?_
  rw [DuckdbOdata.FilterParser.expect]
  split
  next => exact .ok rfl
  next => exact .skip read .error

structure Refines (tokens : List Token) (fuel : Nat) : Prop where
  or : ∀ opened pos, Follows (Same tokens) (parseOr tokens fuel opened pos) (DuckdbOdata.FilterParser.parseOr fuel (tokens.drop pos))
  orRest : ∀ opened left pos, Follows (Same tokens) (orLoop tokens fuel opened left pos)
    (DuckdbOdata.FilterParser.orLoop fuel left (tokens.drop pos))
  and : ∀ opened pos, Follows (Same tokens) (parseAnd tokens fuel opened pos)
    (DuckdbOdata.FilterParser.parseAnd fuel (tokens.drop pos))
  andRest : ∀ opened left pos, Follows (Same tokens) (andLoop tokens fuel opened left pos)
    (DuckdbOdata.FilterParser.andLoop fuel left (tokens.drop pos))
  not : ∀ opened pos, Follows (Same tokens) (parseNot tokens fuel opened pos)
    (DuckdbOdata.FilterParser.parseNot fuel (tokens.drop pos))
  comparison : ∀ opened pos, Follows (Same tokens) (parseComparison tokens fuel opened pos)
    (DuckdbOdata.FilterParser.parseComparison fuel (tokens.drop pos))
  primary : ∀ opened pos, Follows (Same tokens) (parsePrimary tokens fuel opened pos)
    (DuckdbOdata.FilterParser.parsePrimary fuel (tokens.drop pos))
  args : ∀ opened pos, Follows (Same tokens) (argLoop tokens fuel opened pos)
    (DuckdbOdata.FilterParser.parseArgs fuel (tokens.drop pos))

namespace Refines

theorem zero : Refines tokens 0 := by
  constructor <;> intros <;> exact .error

private theorem parseOr (refines : Refines tokens fuel) (opened : List Call) (pos : Nat) :
    Follows (Same tokens) (parseOr tokens (fuel + 1) opened pos)
      (DuckdbOdata.FilterParser.parseOr (fuel + 1) (tokens.drop pos)) := by
  rw [Indexed.FilterParser.parseOr, DuckdbOdata.FilterParser.parseOr]
  refine .skip rfl (.bind (refines.and _ pos) ?_)
  rintro ⟨left, after⟩ _ ⟨rfl⟩
  exact refines.orRest _ left after

private theorem orLoop (refines : Refines tokens fuel) (opened : List Call) (left : Expr) (pos : Nat) :
    Follows (Same tokens) (orLoop tokens (fuel + 1) opened left pos)
      (DuckdbOdata.FilterParser.orLoop (fuel + 1) left (tokens.drop pos)) := by
  rw [Indexed.FilterParser.orLoop, DuckdbOdata.FilterParser.orLoop]
  refine .skip rfl (.bind (accept_follows .or pos) ?_)
  rintro matched _ rfl
  cases matched with
  | none => exact .pure rfl
  | some next =>
    refine .bind (refines.and _ next) ?_
    rintro ⟨right, after⟩ _ ⟨rfl⟩
    exact refines.orRest _ _ after

private theorem parseAnd (refines : Refines tokens fuel) (opened : List Call) (pos : Nat) :
    Follows (Same tokens) (parseAnd tokens (fuel + 1) opened pos)
      (DuckdbOdata.FilterParser.parseAnd (fuel + 1) (tokens.drop pos)) := by
  rw [Indexed.FilterParser.parseAnd, DuckdbOdata.FilterParser.parseAnd]
  refine .skip rfl (.bind (refines.not _ pos) ?_)
  rintro ⟨left, after⟩ _ ⟨rfl⟩
  exact refines.andRest _ left after

private theorem andLoop (refines : Refines tokens fuel) (opened : List Call) (left : Expr) (pos : Nat) :
    Follows (Same tokens) (andLoop tokens (fuel + 1) opened left pos)
      (DuckdbOdata.FilterParser.andLoop (fuel + 1) left (tokens.drop pos)) := by
  rw [Indexed.FilterParser.andLoop, DuckdbOdata.FilterParser.andLoop]
  refine .skip rfl (.bind (accept_follows .and pos) ?_)
  rintro matched _ rfl
  cases matched with
  | none => exact .pure rfl
  | some next =>
    refine .bind (refines.not _ next) ?_
    rintro ⟨right, after⟩ _ ⟨rfl⟩
    exact refines.andRest _ _ after

private theorem parseNot (refines : Refines tokens fuel) (opened : List Call) (pos : Nat) :
    Follows (Same tokens) (parseNot tokens (fuel + 1) opened pos)
      (DuckdbOdata.FilterParser.parseNot (fuel + 1) (tokens.drop pos)) := by
  rw [Indexed.FilterParser.parseNot, DuckdbOdata.FilterParser.parseNot]
  refine .skip rfl (.bind (accept_follows .not pos) ?_)
  rintro matched _ rfl
  cases matched with
  | none => exact refines.comparison _ pos
  | some next =>
    refine .bind (refines.not _ next) ?_
    rintro ⟨child, after⟩ _ ⟨rfl⟩
    exact .pure rfl

private theorem parseComparison (refines : Refines tokens fuel) (opened : List Call) (pos : Nat) :
    Follows (Same tokens) (parseComparison tokens (fuel + 1) opened pos)
      (DuckdbOdata.FilterParser.parseComparison (fuel + 1) (tokens.drop pos)) := by
  rw [Indexed.FilterParser.parseComparison, DuckdbOdata.FilterParser.parseComparison]
  refine .skip rfl (.bind (refines.primary _ pos) ?_)
  rintro ⟨left, middle⟩ _ ⟨rfl⟩
  rcases peek_cases tokens middle with ⟨rest, failed⟩ | ⟨token, rest, read⟩
  · rw [rest]
    exact .fail failed
  · rw [rest]
    refine .skip read ?_
    dsimp only
    cases comparisonOp token.type with
    | none => exact .pure (congrArg (Prod.mk left) rest.symm)
    | some op =>
      refine .skip rfl (.bind (refines.primary _ (middle + 1)) ?_)
      rintro ⟨right, last⟩ _ ⟨rfl⟩
      exact .pure rfl

private theorem parsePrimary (refines : Refines tokens fuel) (opened : List Call) (pos : Nat) :
    Follows (Same tokens) (parsePrimary tokens (fuel + 1) opened pos)
      (DuckdbOdata.FilterParser.parsePrimary (fuel + 1) (tokens.drop pos)) := by
  rw [Indexed.FilterParser.parsePrimary]
  refine .skip rfl (peek_follows (DuckdbOdata.FilterParser.parsePrimary (fuel + 1)) rfl fun tok _ => ?_)
  rw [DuckdbOdata.FilterParser.parsePrimary]
  cases literalOf tok with
  | some literal => exact .skip rfl (.pure rfl)
  | none =>
    dsimp only
    cases tok.type with
    | lparen =>
      refine .skip rfl (.bind (refines.or _ (pos + 1)) ?_)
      rintro ⟨expr, after⟩ _ ⟨rfl⟩
      refine .bind (expect_follows .rparen _ after) ?_
      rintro last _ rfl
      exact .pure rfl
    | identifier =>
      refine .skip rfl (.bind (accept_follows .lparen (pos + 1)) ?_)
      rintro matched _ rfl
      cases matched with
      | none => exact .pure rfl
      | some first =>
        refine .bind (accept_follows .rparen first) ?_
        rintro closed _ rfl
        cases closed with
        | some last => exact .pure rfl
        | none =>
          refine .bind (refines.args _ first) ?_
          rintro ⟨args, after⟩ _ ⟨rfl⟩
          exact .pure rfl
    | _ => exact .error

private theorem argLoop (refines : Refines tokens fuel) (opened : List Call) (pos : Nat) :
    Follows (Same tokens) (argLoop tokens (fuel + 1) opened pos)
      (DuckdbOdata.FilterParser.parseArgs (fuel + 1) (tokens.drop pos)) := by
  rw [Indexed.FilterParser.argLoop, DuckdbOdata.FilterParser.parseArgs]
  refine .skip rfl (.bind (refines.or _ pos) ?_)
  rintro ⟨arg, after⟩ _ ⟨rfl⟩
  refine .bind (accept_follows .rparen after) ?_
  rintro matched _ rfl
  cases matched with
  | some last => exact .pure rfl
  | none =>
    refine .bind (expect_follows .comma _ after) ?_
    rintro next _ rfl
    refine .bind (refines.args _ next) ?_
    rintro ⟨args, last⟩ _ ⟨rfl⟩
    exact .pure rfl

end Refines

theorem refines (tokens : List Token) (fuel : Nat) : Refines tokens fuel := by
  induction fuel with
  | zero => exact .zero
  | succ fuel ih =>
    exact ⟨ih.parseOr, ih.orLoop, ih.parseAnd, ih.andLoop, ih.parseNot, ih.parseComparison, ih.parsePrimary, ih.argLoop⟩

/-- The parser over the index computes what the parser over the tokens still to read does. -/
theorem parse_follows (tokens : List Token) :
    Follows (fun expr plain => plain = expr) (parse tokens (enough tokens)) (DuckdbOdata.FilterParser.parse tokens) := by
  cases tokens with
  | nil => exact .error
  | cons first rest =>
    rw [DuckdbOdata.FilterParser.parse]
    refine .skip (peek_result rfl) ?_
    split
    next => exact .error
    next =>
      refine .bind ((refines (first :: rest) _).or [] 0) ?_
      rintro ⟨expr, after⟩ _ ⟨rfl⟩
      rcases peek_cases (first :: rest) after with ⟨rest, failed⟩ | ⟨token, rest, read⟩
      · rw [rest]
        exact .fail failed
      · rw [rest]
        refine .skip read ?_
        dsimp only
        split
        next => exact .pure rfl
        next => exact .skip read .error

/-- No access is past the last token and END is not consumed; a function is open,
and a loop has been round, at smaller indices only; and every fuel from `enough`
on gives the same run, which returns or throws as the parser does. -/
theorem parser_progress {tokens : List Token} (ended : Ended tokens) :
    (∀ visit ∈ (parse tokens (enough tokens)).events, Orderly tokens visit) ∧
      (∀ fuel, enough tokens ≤ fuel → parse tokens fuel = parse tokens (enough tokens)) ∧
      (parse tokens (enough tokens)).result ≠ .error .undefined ∧
      (parse tokens (enough tokens)).result = DuckdbOdata.FilterParser.parse tokens :=
  ⟨(parse_ensures ended le_rfl).events, fun _ fuelled => parse_fuel ended fuelled, parse_returns ended le_rfl,
    (parse_follows tokens).result_eq⟩

theorem parser_progress_not :
    let tokens : List Token := [{ type := .not }, { type := .identifier, text := "a".toList }, { type := .end }]
    (∀ visit ∈ (parse tokens (enough tokens)).events, Orderly tokens visit) ∧
      (∀ fuel, enough tokens ≤ fuel → parse tokens fuel = parse tokens (enough tokens)) ∧
      (parse tokens (enough tokens)).result ≠ .error .undefined ∧
      (parse tokens (enough tokens)).result = DuckdbOdata.FilterParser.parse tokens :=
  parser_progress (by simp [Ended])

/-- The lexer's token lists are such lists. -/
theorem filter_orderly {filter : Str} {tokens : List Token} (lexed : tokenize filter = .ok tokens) :
    Ensures (Orderly tokens) Exception (fun _ => True) (parse tokens (enough tokens)) :=
  parse_ensures (FilterErrors.tokenizeFrom_ended _ _ _ lexed) le_rfl

end DuckdbOdata.ParserProgress
