import DuckdbOdata.Compiler.ExpressionCompiler
import DuckdbOdata.Proofs.FilterGrammar
import DuckdbOdata.Proofs.Lexemes

/-! Which filters can fail with an exception that the request handler does not
map to a client error: those in which the scan reaches a numeral that its library
conversion rejects. -/

namespace DuckdbOdata.FilterErrors
open Text Binary64 FilterGrammar Lexemes

/-- From the text of `$filter` to the text of the condition. -/
def compileFilter (entity : EdmEntity) (filter : Str) : Except Exn Str := do
  let expr ← parseFilter filter
  compile entity expr

/-- Every numeral that the scan of the text reaches can be converted. -/
def NumeralsFit (filter : Str) : Prop := ∀ text isFloat, Numeral filter text isFloat → Fits text isFloat

theorem numeralsFit_nil : NumeralsFit [] := nofun

theorem numeralsFit_step {c : Char} {rest after : Str} (skipped : skipLexeme c rest = some after) :
    NumeralsFit (c :: rest) ↔
      (startsNumber c rest → Fits (scanNumber (c :: rest)).1 (scanNumber (c :: rest)).2.1) ∧ NumeralsFit after := by
  constructor
  · intro fit
    exact ⟨fun starts => fit _ _ (.here starts rfl), fun text isFloat later => fit text isFloat (.later skipped later)⟩
  · rintro ⟨first, others⟩ text isFloat (⟨starts, scanned⟩ | ⟨other, later⟩)
    · rw [scanned] at first
      exact first starts
    · cases skipped.symm.trans other
      exact others text isFloat later

/-- The scan ends at a malformed lexeme. -/
theorem numeralsFit_stop {c : Char} {rest : Str} (stopped : skipLexeme c rest = none) (number : ¬ startsNumber c rest) :
    NumeralsFit (c :: rest) := by
  rintro text isFloat (⟨starts, -⟩ | ⟨skipped, -⟩)
  · exact absurd starts number
  · cases stopped.symm.trans skipped

theorem reported_ok_bind {result : Except Exn α} {f : α → β} :
    Reported (result >>= fun value => .ok (f value)) ↔ Reported result := by
  cases result with
  | ok value => simp [ok_bind]
  | error failure => exact ⟨fun reported e same => reported e (by cases same; rfl), fun reported e same => reported e (by cases same; rfl)⟩

theorem tokenizeFrom_reported (fuel line : Nat) (input : Str) (enough : input.length ≤ fuel) :
    Reported (tokenizeFrom fuel line input) ↔ NumeralsFit input := by
  induction fuel generalizing line input with
  | zero =>
    rw [List.length_eq_zero_iff.mp (Nat.le_zero.mp enough)]
    simp [tokenizeFrom, numeralsFit_nil]
  | succ fuel ih =>
    cases input with
    | nil => simp [tokenizeFrom, numeralsFit_nil]
    | cons c rest =>
      simp only [List.length_cons, Nat.add_le_add_iff_right] at enough
      by_cases space : blank c
      · obtain ⟨next, skipped⟩ := tokenizeFrom_blank fuel line space rest
        rw [skipped, ih next rest enough, numeralsFit_step (skipLexeme_blank space rest)]
        simp [blank_startsNumber space rest]
      · rw [tokenizeFrom_lexeme fuel line space rest]
        have cases := nextToken_cases line c rest space
        generalize nextToken line c rest = result at cases ⊢
        cases cases with
        | @token token after skipped _ fits =>
          rw [ok_bind, reported_ok_bind, ih line after ((skipLexeme_length skipped).trans enough), numeralsFit_step skipped]
          exact ⟨fun others => ⟨fits, others⟩, And.right⟩
        | malformed stopped number =>
          exact ⟨fun _ => numeralsFit_stop stopped number, fun _ => reported_parse _⟩
        | unfit other starts unfit =>
          refine ⟨fun reported => ?_, fun fit => absurd (fit _ _ (.here starts rfl)) unfit⟩
          obtain ⟨message, same⟩ := reported _ rfl
          exact absurd same (other message)

theorem tokenizeFrom_ended (fuel line : Nat) (input : Str) {tokens : List Token}
    (lexed : tokenizeFrom fuel line input = .ok tokens) : Ended tokens := by
  induction fuel generalizing line input tokens with
  | zero =>
    cases input with
    | nil => cases lexed; simp [Ended]
    | cons c rest => cases lexed
  | succ fuel ih =>
    cases input with
    | nil => cases lexed; simp [Ended]
    | cons c rest =>
      by_cases space : blank c
      · obtain ⟨next, skipped⟩ := tokenizeFrom_blank fuel line space rest
        exact ih next rest (skipped ▸ lexed)
      · rw [tokenizeFrom_lexeme fuel line space rest] at lexed
        have cases := nextToken_cases line c rest space
        generalize nextToken line c rest = result at cases lexed
        cases cases with
        | @token token after _ typed _ =>
          rw [ok_bind] at lexed
          obtain ⟨others, rest, done⟩ := bind_ok lexed
          cases done
          simpa [Ended, typed.inner] using ih line after rest
        | malformed => cases lexed
        | unfit => cases lexed

theorem resolveProperty_reported (entity : EdmEntity) (name : Str) : Reported (resolveProperty entity name) := by
  unfold resolveProperty
  split
  · exact reported_ok _
  · exact reported_parse _

theorem compileArgs_reported (entity : EdmEntity) (args : List Expr)
    (reported : ∀ arg ∈ args, Reported (compile entity arg)) : Reported (compileArgs entity args) := by
  induction args with
  | nil => exact reported_ok _
  | cons arg others ih =>
    rw [compileArgs]
    refine (reported arg (by simp)).bind fun text _ => ?_
    exact reported_ok_bind.mpr (ih fun other member => reported other (List.mem_cons_of_mem _ member))

theorem compile_reported (entity : EdmEntity) (expr : Expr) : Reported (compile entity expr) := by
  induction expr with
  | property name => exact resolveProperty_reported entity name
  | literal value => exact reported_ok _
  | unary op child inner =>
    cases op
    exact reported_ok_bind.mpr inner
  | binary op left right first last =>
    rw [compile]
    split
    · exact reported_ok_bind.mpr last
    · exact reported_ok_bind.mpr first
    · exact reported_ok_bind.mpr last
    · exact reported_ok_bind.mpr first
    · exact first.bind fun lhs _ => reported_ok_bind.mpr last
  | functionCall name args inner =>
    rw [compile]
    split
    · exact reported_parse _
    · split
      · exact reported_parse _
      · split
        · exact reported_ok _
        · exact reported_ok_bind.mpr (compileArgs_reported entity args inner)

/-- A filter is answered by a value or a parse exception exactly when all
numerals that the scan reaches can be converted. -/
theorem compileFilter_reported (entity : EdmEntity) (filter : Str) :
    Reported (compileFilter entity filter) ↔ NumeralsFit filter := by
  rw [← tokenizeFrom_reported filter.length 1 filter le_rfl]
  constructor
  · intro reported
    cases lexed : tokenizeFrom filter.length 1 filter with
    | ok tokens => exact reported_ok _
    | error failure =>
      intro other same
      cases same
      exact reported failure (by simp only [compileFilter, parseFilter, tokenize, lexed]; rfl)
  · intro reported
    simp only [compileFilter, parseFilter]
    refine Reported.bind (Reported.bind reported fun tokens lexed => ?_) fun expr _ => compile_reported entity expr
    exact parse_reported tokens (tokenizeFrom_ended _ _ _ lexed)

/-- An integer beyond 64 bits ends in `std::out_of_range`. -/
theorem compileFilter_overflow :
    ¬ Reported (compileFilter { name := "t".toList, properties := [{ name := "a".toList }] }
      "a eq 99999999999999999999".toList) := by
  have lexed : tokenize "a eq 99999999999999999999".toList = .error (.outOfRange "stoll".toList) := rfl
  intro reported
  obtain ⟨message, same⟩ := reported (.outOfRange "stoll".toList) (by simp only [compileFilter, parseFilter, lexed]; rfl)
  cases same

end DuckdbOdata.FilterErrors
