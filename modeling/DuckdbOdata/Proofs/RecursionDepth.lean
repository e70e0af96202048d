import DuckdbOdata.Proofs.FilterDepth
import DuckdbOdata.Proofs.FilterPrinting

/-! The nesting limit and the recursion of the parser and the compiler. The limit
counts parentheses; a chain of `not` needs none, and neither does a chain of
`and` or `or`, which the parser turns into a tree as deep as it is long. -/

namespace DuckdbOdata.RecursionDepth
open Text FilterGrammar FilterDepth Lexemes

mutual
/-- The height of the syntax tree, which is how deep `Compile` recurses. -/
def height : Expr → Nat
  | .property _ => 1
  | .literal _ => 1
  | .unary _ child => height child + 1
  | .binary _ left right => max (height left) (height right) + 1
  | .functionCall _ args => argsHeight args + 1

def argsHeight : List Expr → Nat
  | [] => 0
  | arg :: others => max (height arg) (argsHeight others)
end

/-- The open calls of `ParseNot`, for each open parenthesis and outside of all. -/
def openCalls (calls : List Nat) (token : Token) : List Nat :=
  match token.type, calls with
  | .lparen, _ => 0 :: calls
  | .rparen, _ :: outer => outer
  | .not, inner :: outer => (inner + 1) :: outer
  | .and, _ :: outer | .or, _ :: outer | .comma, _ :: outer => 0 :: outer
  | _, _ => calls

/-- How deep the parser's calls nest: in parentheses, in arguments and in chains
of `not`. -/
def callNesting (calls : List Nat) : List Token → Nat
  | [] => calls.sum + (calls.length - 1)
  | token :: rest => max (calls.sum + (calls.length - 1)) (callNesting (openCalls calls token) rest)

/-- A filter that passes the limit and parses. -/
structure Passes (maxDepth : Int) (filter : Str) (tokens : List Token) (expr : Expr) : Prop where
  within : filterWithinDepth filter maxDepth = true
  lexed : tokenize filter = .ok tokens
  parsed : parseFilter filter = .ok expr

/-- One bound on the recursion for all filters that pass the limit. -/
def Bounded (maxDepth : Int) : Prop :=
  ∃ bound, ∀ filter tokens expr, Passes maxDepth filter tokens expr → callNesting [0] tokens ≤ bound ∧ height expr ≤ bound

instance (c : Char) : Decidable (plainChar c) := inferInstanceAs (Decidable (c ≠ '\'' ∧ ¬ (c = '(' ∨ c = ')')))

/-- Without quotes and parentheses there is nothing to count. -/
theorem filterWithinDepth_plain {filter : Str} (plain : ∀ c ∈ filter, plainChar c) (maxDepth : Int) :
    filterWithinDepth filter maxDepth = true := by
  unfold filterWithinDepth
  split
  next => rfl
  next limited =>
    have none : counted false filter = [] := by
      induction filter with
      | nil => rfl
      | cons c rest ih =>
        obtain ⟨⟨quote, paren⟩, later⟩ := List.forall_mem_cons.mp plain
        rw [counted, if_neg (fun toggle => quote toggle.1), if_neg (fun opening => paren (.inl opening.2)),
          if_neg (fun closing => paren (.inr closing.2))]
        exact ih later
    rw [show ({} : DepthScan) = ⟨(0 : Nat), false⟩ from rfl, depthLoop_counted maxDepth false 0 filter (by omega), none]
    exact not_lt.mp limited

/-- `not not … a` -/
def nots : Nat → Str
  | 0 => "a".toList
  | n + 1 => 'n' :: 'o' :: 't' :: ' ' :: nots n

def negated : Nat → Expr
  | 0 => .property "a".toList
  | n + 1 => .unary .not (negated n)

private theorem negated_level (n : Nat) : 2 ≤ bindingLevel (negated n) := by
  cases n with
  | zero => decide
  | succ n => exact le_rfl

private theorem print_negated (n : Nat) : print (negated (n + 1)) = notToken :: print (negated n) := by
  rw [negated, print, parenthesized, if_neg (Nat.not_lt.mpr (negated_level n))]

private theorem nextToken_not (rest : Str) : nextToken 1 'n' ('o' :: 't' :: ' ' :: rest) = .ok (notToken, ' ' :: rest) := rfl

theorem tokenize_nots (n : Nat) : tokenize (nots n) = .ok (print (negated n) ++ [{ type := .end }]) := by
  have scan : ∀ fuel, (nots n).length ≤ fuel → tokenizeFrom fuel 1 (nots n) = .ok (print (negated n) ++ [{ type := .end }]) := by
    induction n with
    | zero =>
      intro fuel enough
      cases fuel with
      | zero => exact absurd enough (by decide)
      | succ fuel =>
        cases fuel with
        | zero => rfl
        | succ fuel => rfl
    | succ n ih =>
      intro fuel enough
      rw [nots] at enough ⊢
      simp only [List.length_cons] at enough
      obtain ⟨fuel, rfl⟩ := Nat.exists_eq_add_of_le' (show 2 ≤ fuel by omega)
      rw [tokenizeFrom_lexeme _ _ (by decide), nextToken_not, ok_bind]
      dsimp only
      have blank : tokenizeFrom (fuel + 1) 1 (' ' :: nots n) = tokenizeFrom fuel 1 (nots n) := rfl
      rw [blank, ih fuel (by omega), ok_bind, print_negated]
      rfl
  exact scan _ le_rfl

private theorem nots_plain (n : Nat) : ∀ c ∈ nots n, plainChar c := by
  induction n with
  | zero => exact every (by decide)
  | succ n ih =>
    rw [nots]
    simp only [List.forall_mem_cons]
    exact ⟨by decide, by decide, by decide, by decide, ih⟩

theorem parse_nots (n : Nat) : parseFilter (nots n) = .ok (negated n) := by
  rw [parseFilter, tokenize_nots, ok_bind]
  exact parse_print (negated n) rfl

theorem height_negated (n : Nat) : height (negated n) = n + 1 := by
  induction n with
  | zero => rfl
  | succ n ih => rw [negated, height, ih]

theorem callNesting_negated (n : Nat) (calls : Nat) (rest : List Token) : calls + n ≤ callNesting [calls] (print (negated n) ++ rest) := by
  induction n generalizing calls with
  | zero => exact le_max_left _ _
  | succ n ih =>
    rw [print_negated]
    have later := ih (calls + 1)
    have same : openCalls [calls] notToken = [calls + 1] := rfl
    rw [List.cons_append, callNesting, same]
    exact le_max_of_le_right (by omega)

theorem nots_passes (maxDepth : Int) (n : Nat) : Passes maxDepth (nots n) (print (negated n) ++ [{ type := .end }]) (negated n) where
  within := filterWithinDepth_plain (nots_plain n) maxDepth
  lexed := tokenize_nots n
  parsed := parse_nots n

/-- ` and a and a …` -/
def andMore : Nat → Str
  | 0 => []
  | n + 1 => ' ' :: 'a' :: 'n' :: 'd' :: ' ' :: 'a' :: andMore n

def moreTokens : Nat → List Token
  | 0 => []
  | n + 1 => opToken .and :: nameToken "a".toList :: moreTokens n

def conjunction : Nat → Expr
  | 0 => .property "a".toList
  | n + 1 => .binary .and (conjunction n) (.property "a".toList)

private theorem moreTokens_succ (n : Nat) : moreTokens (n + 1) = moreTokens n ++ [opToken .and, nameToken "a".toList] := by
  induction n with
  | zero => rfl
  | succ n ih => exact congrArg (opToken .and :: nameToken "a".toList :: ·) ih

private theorem conjunction_level (n : Nat) : 1 ≤ bindingLevel (conjunction n) := by
  cases n with
  | zero => decide
  | succ n => exact le_rfl

theorem print_conjunction (n : Nat) : print (conjunction n) = nameToken "a".toList :: moreTokens n := by
  induction n with
  | zero => rfl
  | succ n ih =>
    have left : parenthesized 1 (conjunction n) (print (conjunction n)) = print (conjunction n) :=
      if_neg (Nat.not_lt.mpr (conjunction_level n))
    rw [moreTokens_succ, ← List.cons_append, ← ih, conjunction, print]
    show parenthesized 1 (conjunction n) (print (conjunction n)) ++ _ = _
    rw [left]
    rfl

private theorem nextToken_name (n : Nat) : nextToken 1 'a' (andMore n) = .ok (nameToken "a".toList, andMore n) := by
  cases n with
  | zero => rfl
  | succ n => rfl

private theorem nextToken_and (rest : Str) : nextToken 1 'a' ('n' :: 'd' :: ' ' :: rest) = .ok (opToken .and, ' ' :: rest) := rfl

private theorem tokenize_name (fuel n : Nat) : tokenizeFrom (fuel + 1) 1 ('a' :: andMore n) =
    (tokenizeFrom fuel 1 (andMore n)).map (nameToken "a".toList :: ·) := by
  rw [tokenizeFrom_lexeme _ _ (by decide), nextToken_name, ok_bind]
  dsimp only
  cases tokenizeFrom fuel 1 (andMore n) <;> rfl

private theorem tokenize_more (n : Nat) : ∀ fuel, (andMore n).length ≤ fuel →
    tokenizeFrom fuel 1 (andMore n) = .ok (moreTokens n ++ [{ type := .end }]) := by
  induction n with
  | zero =>
    intro fuel _
    cases fuel with
    | zero => rfl
    | succ fuel => rfl
  | succ n ih =>
    intro fuel enough
    rw [andMore] at enough ⊢
    simp only [List.length_cons] at enough
    obtain ⟨fuel, rfl⟩ := Nat.exists_eq_add_of_le' (show 4 ≤ fuel by omega)
    have blank : ∀ fuel rest, tokenizeFrom (fuel + 1) 1 (' ' :: rest) = tokenizeFrom fuel 1 rest := fun _ _ => rfl
    rw [blank, tokenizeFrom_lexeme _ _ (by decide), nextToken_and, ok_bind]
    dsimp only
    rw [blank, tokenize_name, ih fuel (by omega)]
    rfl

theorem tokenize_ands (n : Nat) : tokenize ('a' :: andMore n) = .ok (print (conjunction n) ++ [{ type := .end }]) := by
  rw [tokenize, List.length_cons, tokenize_name, tokenize_more n _ le_rfl, print_conjunction]
  rfl

private theorem andMore_plain (n : Nat) : ∀ c ∈ andMore n, plainChar c := by
  induction n with
  | zero => exact nofun
  | succ n ih =>
    rw [andMore]
    simp only [List.forall_mem_cons]
    exact ⟨by decide, by decide, by decide, by decide, by decide, by decide, ih⟩

theorem ands_passes (maxDepth : Int) (n : Nat) :
    Passes maxDepth ('a' :: andMore n) (print (conjunction n) ++ [{ type := .end }]) (conjunction n) where
  within := filterWithinDepth_plain (List.forall_mem_cons.mpr ⟨by decide, andMore_plain n⟩) maxDepth
  lexed := tokenize_ands n
  parsed := by
    rw [parseFilter, tokenize_ands, ok_bind]
    exact parse_print (conjunction n) rfl

theorem height_conjunction (n : Nat) : height (conjunction n) = n + 1 := by
  induction n with
  | zero => rfl
  | succ n ih =>
    rw [conjunction, height, ih, height]
    omega

theorem callNesting_conjunction (n : Nat) : callNesting [0] (print (conjunction n) ++ [{ type := .end }]) = 0 := by
  rw [print_conjunction]
  induction n with
  | zero => rfl
  | succ n ih =>
    have first : callNesting [0] (nameToken "a".toList :: moreTokens (n + 1) ++ [{ type := .end }]) =
        max 0 (max 0 (callNesting [0] (nameToken "a".toList :: moreTokens n ++ [{ type := .end }]))) := rfl
    rw [first, ih]
    rfl

/-- No limit bounds the recursion: neither the nesting of the parser's calls nor,
even where these do not nest at all, the height of the tree. -/
theorem not_bounded (maxDepth : Int) :
    ¬ Bounded maxDepth ∧
      (∀ bound, ∃ filter tokens expr, Passes maxDepth filter tokens expr ∧ bound < callNesting [0] tokens) ∧
      ∀ bound, ∃ filter tokens expr, Passes maxDepth filter tokens expr ∧ callNesting [0] tokens = 0 ∧ bound < height expr := by
  have chains : ∀ bound, ∃ filter tokens expr, Passes maxDepth filter tokens expr ∧ bound < callNesting [0] tokens := by
    intro bound
    have deep := callNesting_negated (bound + 1) 0 [{ type := .end }]
    exact ⟨_, _, _, nots_passes maxDepth (bound + 1), by omega⟩
  refine ⟨?_, chains, ?_⟩
  · rintro ⟨bound, bounds⟩
    obtain ⟨filter, tokens, expr, passes, deep⟩ := chains bound
    exact absurd (bounds filter tokens expr passes).1 (Nat.not_le.mpr deep)
  · intro bound
    have tall := height_conjunction bound
    exact ⟨_, _, _, ands_passes maxDepth bound, callNesting_conjunction bound, by omega⟩

/-- The limit 0 allows no parenthesis, and any number of `not`. -/
theorem not_bounded_zero : ¬ Bounded 0 ∧ filterWithinDepth "(a)".toList 0 = false := by
  refine ⟨?_, rfl⟩
  rintro ⟨bound, bounds⟩
  have deep := (bounds _ _ _ (nots_passes 0 bound)).2
  rw [height_negated] at deep
  omega

end DuckdbOdata.RecursionDepth
