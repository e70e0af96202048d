import DuckdbOdata.Proofs.FilterGrammar
import DuckdbOdata.Proofs.Lexemes
import DuckdbOdata.Server.Routing

/-! When the nesting limit and the tokenizer see the same parentheses. The limit
toggles its quote flag once for every maximal run of single quotes, so its view
of a position is the parity of the runs before it. -/

namespace DuckdbOdata.FilterDepth
open Text FilterGrammar Lexemes

/-- The greatest depth of a sequence of opening (`true`) and closing parentheses,
where closing never goes below zero. -/
def peakFrom : Nat → List Bool → Nat
  | depth, [] => depth
  | depth, true :: parens => max depth (peakFrom (depth + 1) parens)
  | depth, false :: parens => max depth (peakFrom (depth - 1) parens)

def parenOf (token : Token) : Option Bool :=
  match token.type with
  | .lparen => some true
  | .rparen => some false
  | _ => none

/-- The nesting of the tokens' parentheses. -/
def nesting (tokens : List Token) : Nat := peakFrom 0 (tokens.filterMap parenOf)

/-- The number of maximal runs of single quotes. -/
def quoteRuns : Str → Nat
  | [] => 0
  | c :: rest => (if c = '\'' ∧ rest.head? ≠ some '\'' then 1 else 0) + quoteRuns rest

/-- For every character whether it belongs to a string literal of the tokenizer. -/
def literalMask : Nat → Str → List Bool
  | fuel + 1, c :: rest =>
    match skipLexeme c rest with
    | none => []
    | some after => List.replicate (rest.length + 1 - after.length) (decide (isQuote c)) ++ literalMask fuel after
  | _, _ => []

def insideLiteral (filter : Str) (position : Nat) : Prop := (literalMask filter.length filter)[position]? = some true

/-- The state of the scan when it reaches a position. -/
def depthState (maxDepth : Int) : DepthScan → Str → Nat → Option DepthScan
  | scan, _, 0 => some scan
  | _, [], _ + 1 => none
  | scan, c :: rest, position + 1 => (depthStep maxDepth scan c rest.head?).bind (depthState maxDepth · rest position)

/-- The limit is the tokens' nesting, and the scan skips exactly the parentheses
inside string literals. -/
structure DepthExact (filter : Str) (tokens : List Token) : Prop where
  limit : ∀ maxDepth : Int, 0 ≤ maxDepth → (filterWithinDepth filter maxDepth = true ↔ nesting tokens ≤ maxDepth)
  skipped : ∀ position paren maxDepth scan, filter[position]? = some paren → isParen paren →
    depthState maxDepth {} filter position = some scan → (scan.quote = true ↔ insideLiteral filter position)

def toggles (c : Char) (rest : Str) : Prop := c = '\'' ∧ rest.head? ≠ some '\''

instance (c : Char) (rest : Str) : Decidable (toggles c rest) := inferInstanceAs (Decidable (_ ∧ _))

/-- The parentheses that the scan counts. -/
def counted : Bool → Str → List Bool
  | _, [] => []
  | quote, c :: rest =>
    if toggles c rest then counted (!quote) rest
    else if quote = false ∧ c = '(' then true :: counted quote rest
    else if quote = false ∧ c = ')' then false :: counted quote rest
    else counted quote rest

theorem le_peakFrom (depth : Nat) (parens : List Bool) : depth ≤ peakFrom depth parens := by
  match parens with
  | [] => exact le_rfl
  | true :: _ => exact le_max_left _ _
  | false :: _ => exact le_max_left _ _

private theorem depthStep_toggle {maxDepth : Int} {scan : DepthScan} {c : Char} {rest : Str} (toggle : toggles c rest) :
    depthStep maxDepth scan c rest.head? = some { scan with quote := !scan.quote } := by
  unfold depthStep
  exact if_pos toggle

private theorem depthStep_open (maxDepth : Int) (depth : Nat) (next : Option Char) :
    depthStep maxDepth ⟨depth, false⟩ '(' next =
      if maxDepth < (depth + 1 : Nat) then none else some ⟨(depth + 1 : Nat), false⟩ := by
  simp [depthStep]

private theorem depthStep_close (maxDepth : Int) (depth : Nat) (next : Option Char) :
    depthStep maxDepth ⟨depth, false⟩ ')' next = some ⟨(depth - 1 : Nat), false⟩ := by
  cases depth with
  | zero => simp [depthStep]
  | succ depth => simp [depthStep]

private theorem depthStep_other {maxDepth : Int} {scan : DepthScan} {c : Char} {rest : Str} (plain : ¬ toggles c rest)
    (opening : ¬ (scan.quote = false ∧ c = '(')) (closing : ¬ (scan.quote = false ∧ c = ')')) :
    depthStep maxDepth scan c rest.head? = some scan := by
  unfold depthStep
  rw [if_neg (show ¬ (c = '\'' ∧ rest.head? ≠ some '\'') from plain), if_neg opening,
    if_neg (fun all => closing ⟨all.1, all.2.1⟩)]

theorem depthLoop_counted (maxDepth : Int) (quote : Bool) (depth : Nat) (text : Str) (within : depth ≤ maxDepth) :
    depthLoop maxDepth ⟨depth, quote⟩ text = true ↔ peakFrom depth (counted quote text) ≤ maxDepth := by
  induction text generalizing quote depth with
  | nil => simpa [depthLoop, counted, peakFrom] using within
  | cons c rest ih =>
    rw [depthLoop, counted]
    by_cases toggle : toggles c rest
    · rw [depthStep_toggle toggle, if_pos toggle]
      exact ih (!quote) depth within
    rw [if_neg toggle]
    by_cases opening : quote = false ∧ c = '('
    · obtain ⟨rfl, rfl⟩ := opening
      have above := le_peakFrom (depth + 1) (counted false rest)
      rw [depthStep_open]
      simp only [and_self, ite_true, peakFrom]
      by_cases deep : maxDepth < (depth + 1 : Nat)
      · simp only [deep, ite_true, Bool.false_eq_true, false_iff, not_le]
        omega
      · simp only [deep, ite_false, ih false (depth + 1) (not_lt.mp deep)]
        omega
    rw [if_neg opening]
    by_cases closing : quote = false ∧ c = ')'
    · obtain ⟨rfl, rfl⟩ := closing
      rw [depthStep_close]
      simp only [and_self, ite_true, peakFrom, ih false (depth - 1) (by omega)]
      omega
    · rw [depthStep_other toggle opening closing, if_neg closing]
      exact ih quote depth within

/-- One character more to the left, seen from a parenthesis. -/
theorem quoteRuns_take {c : Char} {rest : Str} {position : Nat} {paren : Char} (here : rest[position]? = some paren)
    (isParen : isParen paren) :
    quoteRuns ((c :: rest).take (position + 1)) = (if toggles c rest then 1 else 0) + quoteRuns (rest.take position) := by
  have ahead : (rest.take position).head? ≠ some '\'' ↔ rest.head? ≠ some '\'' := by
    cases rest with
    | nil => simp at here
    | cons d others =>
      cases position with
      | zero =>
        have other : paren ≠ '\'' := by rcases isParen with rfl | rfl <;> decide
        simp only [List.getElem?_cons_zero, Option.some.injEq] at here
        simp [here, other]
      | succ position => simp
  simp only [List.take_succ_cons, quoteRuns, toggles, ahead]
  rfl

/-- The flag after a prefix with so many runs. -/
def flagAfter (quote : Bool) (runs : Nat) : Bool := quote != decide (runs % 2 = 1)

private theorem flagAfter_succ (quote : Bool) (runs : Nat) : flagAfter quote (1 + runs) = flagAfter (!quote) runs := by
  rcases Nat.mod_two_eq_zero_or_one runs with even | odd
  · have flipped : (1 + runs) % 2 = 1 := by omega
    cases quote <;> simp [flagAfter, even, flipped]
  · have flipped : (1 + runs) % 2 = 0 := by omega
    cases quote <;> simp [flagAfter, odd, flipped]

private theorem flagAfter_step {c : Char} {rest : Str} {position : Nat} {paren : Char} (quote : Bool)
    (here : rest[position]? = some paren) (isParen : isParen paren) :
    flagAfter quote (quoteRuns ((c :: rest).take (position + 1))) =
      flagAfter (if toggles c rest then !quote else quote) (quoteRuns (rest.take position)) := by
  rw [quoteRuns_take here isParen]
  split
  · exact flagAfter_succ quote _
  · rw [Nat.zero_add]

private theorem depthStep_quote {maxDepth : Int} {scan next : DepthScan} {c : Char} {rest : Str}
    (stepped : depthStep maxDepth scan c rest.head? = some next) :
    next.quote = if toggles c rest then !scan.quote else scan.quote := by
  by_cases toggle : toggles c rest
  · rw [depthStep_toggle toggle] at stepped
    cases stepped
    rw [if_pos toggle]
  · unfold depthStep at stepped
    rw [if_neg (show ¬ (c = '\'' ∧ rest.head? ≠ some '\'') from toggle)] at stepped
    rw [if_neg toggle]
    split at stepped
    · split at stepped <;> cases stepped
      rfl
    · split at stepped <;> cases stepped <;> rfl

/-- The flag at a parenthesis is the parity of the quote runs before it. -/
theorem depthState_quote {maxDepth : Int} {text : Str} {position : Nat} {scan found : DepthScan} {paren : Char}
    (here : text[position]? = some paren) (isParen : isParen paren)
    (reached : depthState maxDepth scan text position = some found) :
    found.quote = flagAfter scan.quote (quoteRuns (text.take position)) := by
  induction text generalizing scan position with
  | nil => simp at here
  | cons c rest ih =>
    cases position with
    | zero =>
      cases reached
      simp [quoteRuns, flagAfter]
    | succ position =>
      simp only [List.getElem?_cons_succ] at here
      simp only [depthState, Option.bind_eq_some_iff] at reached
      obtain ⟨next, stepped, continued⟩ := reached
      rw [ih here continued, depthStep_quote stepped, flagAfter_step _ here isParen]

/-- Below a limit as large as the text the scan reaches every position. -/
theorem depthState_reaches (maxDepth : Int) (text : Str) (position : Nat) (scan : DepthScan) (inside : position ≤ text.length)
    (room : scan.depth + position ≤ maxDepth) : ∃ found, depthState maxDepth scan text position = some found := by
  induction text generalizing scan position with
  | nil =>
    rw [Nat.le_zero.mp inside]
    exact ⟨scan, rfl⟩
  | cons c rest ih =>
    cases position with
    | zero => exact ⟨scan, rfl⟩
    | succ position =>
      simp only [List.length_cons, Nat.add_le_add_iff_right] at inside
      push_cast at room
      have step : ∃ next, depthStep maxDepth scan c rest.head? = some next ∧ next.depth ≤ scan.depth + 1 := by
        unfold depthStep
        split
        · exact ⟨_, rfl, by simp⟩
        · split
          · rw [if_neg (by omega)]
            exact ⟨_, rfl, le_rfl⟩
          · split
            · exact ⟨_, rfl, by simp only; omega⟩
            · exact ⟨_, rfl, by omega⟩
      obtain ⟨next, stepped, bound⟩ := step
      rw [depthState, stepped]
      exact ih position next inside (by omega)

/-- The parentheses at positions that the mask leaves open. -/
def unmasked : Str → List Bool → List Bool
  | c :: rest, false :: mask =>
    if c = '(' then true :: unmasked rest mask
    else if c = ')' then false :: unmasked rest mask
    else unmasked rest mask
  | _ :: rest, true :: mask => unmasked rest mask
  | _, _ => []

private theorem unmasked_literal (lexeme after : Str) (mask : List Bool) :
    unmasked (lexeme ++ after) (List.replicate lexeme.length true ++ mask) = unmasked after mask := by
  induction lexeme with
  | nil => rfl
  | cons c lexeme ih => simpa [unmasked, List.replicate_succ] using ih

private theorem unmasked_plain (body after : Str) (mask : List Bool) (plain : ∀ d ∈ body, plainChar d) :
    unmasked (body ++ after) (List.replicate body.length false ++ mask) = unmasked after mask := by
  induction body with
  | nil => rfl
  | cons c body ih =>
    have paren := (plain c (by simp)).2
    have left : c ≠ '(' := fun same => paren (.inl same)
    have right : c ≠ ')' := fun same => paren (.inr same)
    simpa [unmasked, List.replicate_succ, left, right] using ih (fun d member => plain d (List.mem_cons_of_mem _ member))

/-- The parenthesis of one character. -/
def parenChar (c : Char) : List Bool := if c = '(' then [true] else if c = ')' then [false] else []

private theorem unmasked_cons (c : Char) (rest : Str) (mask : List Bool) :
    unmasked (c :: rest) (false :: mask) = parenChar c ++ unmasked rest mask := by
  simp only [unmasked, parenChar]
  split
  · rfl
  · split <;> rfl

private theorem parenOf_token {c : Char} {token : Token} (typed : TokenOf c token) :
    (parenOf token).toList = parenChar c := by
  by_cases left : c = '('
  · simp [parenChar, parenOf, left, typed.lparen.mpr left]
  by_cases right : c = ')'
  · simp [parenChar, parenOf, right, typed.rparen.mpr right]
  have first : token.type ≠ .lparen := fun same => left (typed.lparen.mp same)
  have second : token.type ≠ .rparen := fun same => right (typed.rparen.mp same)
  simp only [parenChar, left, right, ite_false]
  unfold parenOf
  split
  next same => exact absurd same first
  next same => exact absurd same second
  next => rfl

private theorem parenChar_quote {c : Char} (quoted : isQuote c) : parenChar c = [] := by
  rcases quoted with rfl | rfl <;> rfl

private theorem unmasked_cut {c : Char} {rest after : Str} (skipped : skipLexeme c rest = some after) (mask : List Bool) :
    unmasked (c :: rest) (List.replicate (rest.length + 1 - after.length) (decide (isQuote c)) ++ mask) =
      parenChar c ++ unmasked after mask := by
  by_cases quoted : isQuote c
  · obtain ⟨value, rfl, -⟩ := skipLexeme_quoted skipped quoted
    have size : (double c value ++ c :: after).length + 1 - after.length = (c :: (double c value ++ [c])).length := by
      simp only [List.length_append, List.length_cons, List.length_nil]
      omega
    have text : c :: (double c value ++ c :: after) = (c :: (double c value ++ [c])) ++ after := by simp
    rw [size, text, decide_eq_true quoted, unmasked_literal, parenChar_quote quoted]
    rfl
  · obtain ⟨body, rfl, plain, -⟩ := skipLexeme_plain skipped quoted
    have size : (body ++ after).length + 1 - after.length = body.length + 1 := by
      simp only [List.length_append]
      omega
    rw [size, decide_eq_false quoted, List.replicate_succ, List.cons_append, unmasked_cons, unmasked_plain body after mask plain]

private theorem literalMask_length {fuel line : Nat} {text : Str} {tokens : List Token}
    (lexed : tokenizeFrom fuel line text = .ok tokens) :
    (literalMask fuel text).length = text.length ∧ tokens.filterMap parenOf = unmasked text (literalMask fuel text) := by
  induction fuel generalizing line text tokens with
  | zero =>
    cases text with
    | nil => cases lexed; exact ⟨rfl, rfl⟩
    | cons c rest => cases lexed
  | succ fuel ih =>
    cases text with
    | nil => cases lexed; exact ⟨rfl, rfl⟩
    | cons c rest =>
      by_cases space : blank c
      · obtain ⟨next, same⟩ := tokenizeFrom_blank fuel line space rest
        obtain ⟨size, parens⟩ := ih (same ▸ lexed)
        have skipped := skipLexeme_blank space rest
        have none : parenChar c = [] := by rcases space with rfl | rfl | rfl | rfl <;> rfl
        simp only [literalMask, skipped]
        rw [unmasked_cut skipped, none]
        exact ⟨by simp [size], parens⟩
      · rw [tokenizeFrom_lexeme fuel line space rest] at lexed
        have cases := nextToken_cases line c rest space
        generalize nextToken line c rest = result at cases lexed
        cases cases with
        | @token token after skipped typed _ =>
          rw [ok_bind] at lexed
          obtain ⟨others, remaining, done⟩ := bind_ok lexed
          cases done
          obtain ⟨size, parens⟩ := ih remaining
          have shorter := skipLexeme_length skipped
          simp only [literalMask, skipped]
          rw [unmasked_cut skipped, ← parenOf_token typed]
          refine ⟨by simp [size]; omega, ?_⟩
          cases found : parenOf token <;> simp [found, parens]
        | malformed => cases lexed
        | unfit => cases lexed

/-- Where the parity of runs agrees with the mask, the scan counts the parentheses
that the mask leaves open. -/
theorem counted_unmasked (quote : Bool) (text : Str) (mask : List Bool) (size : mask.length = text.length)
    (agree : ∀ position paren, text[position]? = some paren → isParen paren →
      (flagAfter quote (quoteRuns (text.take position)) = true ↔ mask[position]? = some true)) :
    counted quote text = unmasked text mask := by
  induction text generalizing quote mask with
  | nil => cases mask <;> rfl
  | cons c rest ih =>
    cases mask with
    | nil => cases size
    | cons hidden mask =>
      have later := ih (if toggles c rest then !quote else quote) mask (by simpa using size) (by
        intro position paren here paren'
        rw [← flagAfter_step quote here paren']
        simpa using agree (position + 1) paren (by simpa using here) paren')
      rw [counted]
      by_cases toggle : toggles c rest
      · have plain : c = '\'' := toggle.1
        rw [if_pos toggle] at later ⊢
        rw [later]
        cases hidden <;> simp [unmasked, plain]
      rw [if_neg toggle] at later ⊢
      by_cases paren : isParen c
      · have flag : quote = true ↔ hidden = true := by
          simpa [flagAfter, quoteRuns] using agree 0 c rfl paren
        cases hidden with
        | true =>
          have quoted : quote = true := flag.mpr rfl
          subst quoted
          simpa [unmasked] using later
        | false =>
          have open' : quote = false := by simpa using flag
          subst open'
          rcases paren with rfl | rfl <;> simp [unmasked, later]
      · have left : c ≠ '(' := fun same => paren (.inl same)
        have right : c ≠ ')' := fun same => paren (.inr same)
        cases hidden <;> simp [unmasked, left, right, later]

/-- The limit works as documented exactly on the filters in which, at every
parenthesis, the runs of single quotes before it are odd in number just when the
parenthesis is inside a string literal. -/
theorem depthExact_iff (filter : Str) (tokens : List Token) (lexed : tokenize filter = .ok tokens) :
    DepthExact filter tokens ↔
      ∀ position paren, filter[position]? = some paren → isParen paren →
        (quoteRuns (filter.take position) % 2 = 1 ↔ insideLiteral filter position) := by
  obtain ⟨size, parens⟩ := literalMask_length lexed
  have flags : ∀ runs, flagAfter false runs = true ↔ runs % 2 = 1 := by simp [flagAfter]
  constructor
  · intro exact' position paren here isParen
    obtain ⟨scan, reached⟩ := depthState_reaches filter.length filter position {}
      (List.getElem?_eq_some_iff.mp here).1.le (by simpa using (List.getElem?_eq_some_iff.mp here).1.le)
    rw [← exact'.skipped position paren filter.length scan here isParen reached, depthState_quote here isParen reached, flags]
  · intro agree
    refine ⟨?_, ?_⟩
    · intro maxDepth positive
      rw [filterWithinDepth, if_neg (by omega)]
      have same := counted_unmasked false filter _ size (by
        intro position paren here isParen
        rw [flags]
        exact agree position paren here isParen)
      have scanned := depthLoop_counted maxDepth false 0 filter (by simpa using positive)
      rw [same, ← parens] at scanned
      exact scanned
    · intro position paren maxDepth scan here isParen reached
      rw [depthState_quote here isParen reached, flags]
      exact agree position paren here isParen

theorem depthExact_iff_quoted :
    ∃ tokens, tokenize "'(' eq (a)".toList = .ok tokens ∧ DepthExact "'(' eq (a)".toList tokens := by
  refine ⟨_, rfl, (depthExact_iff "'(' eq (a)".toList _ rfl).mpr ?_⟩
  intro position paren here isParen
  have agree : ∀ entry ∈ "'(' eq (a)".toList.zipIdx, entry.1 = '(' ∨ entry.1 = ')' →
      (quoteRuns ("'(' eq (a)".toList.take entry.2) % 2 = 1 ↔
        (literalMask "'(' eq (a)".toList.length "'(' eq (a)".toList)[entry.2]? = some true) := by
    decide
  exact agree (paren, position) (List.mem_zipIdx_iff_getElem?.mpr here) isParen

/-- After an empty literal the scan takes the rest of the text for a literal. -/
theorem depthExact_drift : ∃ tokens, tokenize "'' eq (a)".toList = .ok tokens ∧
    ¬ (filterWithinDepth "'' eq (a)".toList 0 = true ↔ (nesting tokens : Int) ≤ 0) :=
  ⟨_, rfl, by decide⟩

end DuckdbOdata.FilterDepth
