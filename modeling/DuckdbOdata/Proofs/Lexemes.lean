import Mathlib.Data.List.TakeWhile
import DuckdbOdata.Parser.Lexer

/-! How the tokenizer cuts a filter into blanks and lexemes. The cuts depend on
the text only, so the numerals a scan reaches can be named without the tokens. -/

namespace DuckdbOdata.Lexemes
open Text Binary64

def blank (c : Char) : Prop := c = ' ' ∨ c = '\t' ∨ c = '\r' ∨ c = '\n'

instance (c : Char) : Decidable (blank c) := inferInstanceAs (Decidable (_ ∨ _))

def isQuote (c : Char) : Prop := c = '\'' ∨ c = '"'

instance (c : Char) : Decidable (isQuote c) := inferInstanceAs (Decidable (_ ∨ _))

/-- The text after the blank or lexeme that `c :: rest` starts with. There is
none at an unterminated literal or an unexpected character. -/
def skipLexeme (c : Char) (rest : Str) : Option Str :=
  if blank c then some rest
  else if isQuote c then (readQuoted c rest).map (·.2)
  else if startsNumber c rest then some (scanNumber (c :: rest)).2.2
  else if isIdentStart c then some ((c :: rest).dropWhile isIdentChar)
  else if (punctuation c).isSome then some rest
  else none

/-- A numeral that the scan of the text reaches, and whether it is a float. -/
inductive Numeral : Str → Str → Bool → Prop
  | here {c rest text isFloat after} : startsNumber c rest → scanNumber (c :: rest) = (text, isFloat, after) →
      Numeral (c :: rest) text isFloat
  | later {c rest text isFloat after} : skipLexeme c rest = some after → Numeral after text isFloat →
      Numeral (c :: rest) text isFloat

/-- The library conversion of a numeral succeeds. -/
def Fits (text : Str) (isFloat : Bool) : Prop :=
  if isFloat then ∃ value, stod text = .ok value else ∃ result, stoll text = .ok result

theorem takeOne_append (accept : Char → Bool) (text : Str) : (takeOne accept text).1 ++ (takeOne accept text).2 = text := by
  cases text with
  | nil => rfl
  | cons c rest =>
    simp only [takeOne]
    split <;> rfl

theorem takeOne_accepted {accept : Char → Bool} {text : Str} {c : Char} (member : c ∈ (takeOne accept text).1) :
    accept c := by
  cases text with
  | nil => cases member
  | cons d rest =>
    simp only [takeOne] at member
    split at member
    next accepted => rwa [List.mem_singleton.mp member]
    next => cases member

theorem takeDigits_append (text : Str) : takeDigits text ++ dropDigits text = text := List.takeWhile_append_dropWhile

theorem scanNumber_append (input : Str) : (scanNumber input).1 ++ (scanNumber input).2.2 = input := by
  have sign := takeOne_append (· == '-') input
  have whole := takeDigits_append (takeOne (· == '-') input).2
  have dot := takeOne_append (· == '.') (dropDigits (takeOne (· == '-') input).2)
  simp only [scanNumber]
  generalize takeOne (· == '-') input = first at *
  generalize takeOne (· == '.') (dropDigits first.2) = second at *
  split
  next missing =>
    have marker := takeOne_append (fun c => c == 'e' || c == 'E') second.2
    generalize takeOne (fun c => c == 'e' || c == 'E') second.2 = third at *
    split
    next absent => simp_all
    next present =>
      have exponent := takeOne_append (fun c => c == '+' || c == '-') third.2
      have digits := takeDigits_append (takeOne (fun c => c == '+' || c == '-') third.2).2
      simp_all
  next found =>
    have fraction := takeDigits_append second.2
    have marker := takeOne_append (fun c => c == 'e' || c == 'E') (dropDigits second.2)
    generalize takeOne (fun c => c == 'e' || c == 'E') (dropDigits second.2) = third at *
    split
    next absent => simp_all
    next present =>
      have exponent := takeOne_append (fun c => c == '+' || c == '-') third.2
      have digits := takeDigits_append (takeOne (fun c => c == '+' || c == '-') third.2).2
      simp_all

/-- Every character of a numeral is one of these. -/
def numeralChar (c : Char) : Prop := c.isDigit ∨ c = '-' ∨ c = '+' ∨ c = '.' ∨ c = 'e' ∨ c = 'E'

theorem takeDigits_char {text : Str} {c : Char} (member : c ∈ takeDigits text) : numeralChar c :=
  .inl (List.mem_takeWhile_imp member)

private theorem mem_digits {absent : Prop} [Decidable absent] {text : Str} {c : Char}
    (member : c ∈ if absent then [] else takeDigits text) : numeralChar c := by
  split at member
  · cases member
  · exact takeDigits_char member

private theorem mem_sign {absent : Prop} [Decidable absent] {accept : Char → Bool} {text after : Str} {c : Char}
    (member : c ∈ (if absent then (([], after) : Str × Str) else takeOne accept text).1) : accept c := by
  split at member
  · cases member
  · exact takeOne_accepted member

theorem scanNumber_chars {input : Str} {c : Char} (member : c ∈ (scanNumber input).1) : numeralChar c := by
  simp only [scanNumber, List.mem_append] at member
  rcases member with (((((sign | whole) | dot) | fraction) | marker) | exponentSign) | exponent
  · have accepted : c = '-' := by simpa using takeOne_accepted sign
    simp [numeralChar, accepted]
  · exact takeDigits_char whole
  · have accepted : c = '.' := by simpa using takeOne_accepted dot
    simp [numeralChar, accepted]
  · exact mem_digits fraction
  · have accepted := takeOne_accepted marker
    simp only [Bool.or_eq_true, beq_iff_eq] at accepted
    rcases accepted with rfl | rfl <;> simp [numeralChar]
  · have accepted := mem_sign exponentSign
    simp only [Bool.or_eq_true, beq_iff_eq] at accepted
    rcases accepted with rfl | rfl <;> simp [numeralChar]
  · exact mem_digits exponent

/-- A numeral starts with its first character. -/
theorem scanNumber_starts {c : Char} {rest : Str} (starts : startsNumber c rest) :
    ∃ body, (scanNumber (c :: rest)).1 = c :: body := by
  have whole := scanNumber_append (c :: rest)
  have some : (scanNumber (c :: rest)).1 ≠ [] := by
    simp only [startsNumber, Bool.or_eq_true, Bool.and_eq_true, beq_iff_eq] at starts
    rcases starts with digit | ⟨rfl, -⟩
    · have other : c ≠ '-' := by rintro rfl; simp at digit
      simp [scanNumber, takeOne, other, takeDigits, digit]
    · simp [scanNumber, takeOne]
  cases text : (scanNumber (c :: rest)).1 with
  | nil => exact absurd text some
  | cons d body =>
    rw [text] at whole
    exact ⟨body, by rw [(List.cons.inj whole).1]⟩

def isParen (c : Char) : Prop := c = '(' ∨ c = ')'

/-- Characters that a lexeme other than a string literal or a parenthesis can have. -/
def plainChar (c : Char) : Prop := c ≠ '\'' ∧ ¬ isParen c

private theorem numeral_plain {c : Char} (numeral : numeralChar c) : plainChar c := by
  rcases numeral with digit | rfl | rfl | rfl | rfl | rfl
  · exact ⟨by rintro rfl; simp at digit, by rintro (rfl | rfl) <;> simp at digit⟩
  all_goals simp [plainChar, isParen]

private theorem ident_plain {c : Char} (ident : isIdentChar c) : plainChar c := by
  exact ⟨by rintro rfl; simp [isIdentChar] at ident, by rintro (rfl | rfl) <;> simp [isIdentChar] at ident⟩

theorem identStart_char {c : Char} (start : isIdentStart c) : isIdentChar c := by
  simp only [isIdentStart, isIdentChar, Char.isAlphanum, Bool.or_eq_true, beq_iff_eq] at start ⊢
  rcases start with alpha | under
  · simp [alpha]
  · simp [under]

/-- A blank or a lexeme other than a string literal: one parenthesis, or no
quotes and no parentheses at all. -/
theorem skipLexeme_plain {c : Char} {rest after : Str} (skipped : skipLexeme c rest = some after) (plain : ¬ isQuote c) :
    ∃ body, rest = body ++ after ∧ (∀ d ∈ body, plainChar d) ∧ c ≠ '\'' ∧ (isParen c → body = []) := by
  have other : c ≠ '\'' := fun same => plain (.inl same)
  simp only [skipLexeme, plain, ite_false] at skipped
  split at skipped
  next => cases skipped; exact ⟨[], rfl, nofun, other, fun _ => rfl⟩
  split at skipped
  next starts =>
    cases skipped
    obtain ⟨body, text⟩ := scanNumber_starts starts
    have whole := scanNumber_append (c :: rest)
    rw [text] at whole
    have chars : ∀ d ∈ c :: body, plainChar d := fun d member => numeral_plain (scanNumber_chars (text ▸ member))
    exact ⟨body, (List.cons.inj whole).2.symm, fun d member => chars d (List.mem_cons_of_mem _ member), other,
      fun paren => absurd paren (chars c (by simp)).2⟩
  split at skipped
  next start =>
    cases skipped
    have accepted := identStart_char start
    refine ⟨rest.takeWhile isIdentChar, ?_, fun d member => ident_plain (List.mem_takeWhile_imp member), other,
      fun paren => absurd paren (ident_plain accepted).2⟩
    rw [List.dropWhile_cons, if_pos accepted, List.takeWhile_append_dropWhile]
  split at skipped
  next => cases skipped; exact ⟨[], rfl, nofun, other, fun _ => rfl⟩
  next => cases skipped

theorem skipLexeme_quoted {c : Char} {rest after : Str} (skipped : skipLexeme c rest = some after) (quoted : isQuote c) :
    ∃ value, rest = double c value ++ c :: after ∧ Closed c after := by
  have other : ¬ blank c := by rcases quoted with rfl | rfl <;> simp [blank]
  simp only [skipLexeme, other, ite_false, quoted, ite_true, Option.map_eq_some_iff, Prod.exists] at skipped
  obtain ⟨value, tail, read, rfl⟩ := skipped
  exact ⟨value, readQuoted_split c rest read⟩

theorem skipLexeme_length {c : Char} {rest after : Str} (skipped : skipLexeme c rest = some after) :
    after.length ≤ rest.length := by
  by_cases quoted : isQuote c
  · obtain ⟨value, rfl, -⟩ := skipLexeme_quoted skipped quoted
    simp only [List.length_append, List.length_cons]
    omega
  · obtain ⟨body, rfl, -⟩ := skipLexeme_plain skipped quoted
    simp

/-- The token's type says whether the lexeme is a parenthesis. -/
structure TokenOf (c : Char) (token : Token) : Prop where
  inner : token.type ≠ .end
  lparen : token.type = .lparen ↔ c = '('
  rparen : token.type = .rparen ↔ c = ')'

private theorem startsNumber_plain {c : Char} {rest : Str} (starts : startsNumber c rest) : plainChar c := by
  obtain ⟨body, text⟩ := scanNumber_starts starts
  exact numeral_plain (scanNumber_chars (text ▸ List.mem_cons_self))

private theorem TokenOf.plain {c : Char} {token : Token} (plain : ¬ isParen c) (inner : token.type ≠ .end)
    (left : token.type ≠ .lparen) (right : token.type ≠ .rparen) : TokenOf c token :=
  ⟨inner, by simp [left, show c ≠ '(' from fun same => plain (.inl same)],
    by simp [right, show c ≠ ')' from fun same => plain (.inr same)]⟩

private theorem ite_mem {choice : Prop} [Decidable choice] {first last : α} {items : List α} (one : first ∈ items)
    (other : last ∈ items) : (if choice then first else last) ∈ items := by
  split
  · exact one
  · exact other

/-- What a word can be. -/
def wordTypes : List TokenType :=
  [.eq, .ne, .gt, .ge, .lt, .le, .and, .or, .not, .boolean, .nullVal, .identifier]

theorem keywordType_mem (lower : Str) : keywordType lower ∈ wordTypes := by
  unfold keywordType
  repeat' apply ite_mem
  all_goals decide

theorem wordToken_type (line : Nat) (text : Str) : (wordToken line text).type ∈ wordTypes := by
  have known := keywordType_mem (toLower text)
  unfold wordToken
  split
  · exact (by decide : TokenType.boolean ∈ wordTypes)
  · exact (by decide : TokenType.nullVal ∈ wordTypes)
  · exact (by decide : TokenType.identifier ∈ wordTypes)
  · exact known

private theorem punctuation_tokenOf {c : Char} {type : TokenType} (found : punctuation c = some type) (line : Nat) :
    TokenOf c { type, text := [c], line } := by
  unfold punctuation at found
  split at found
  next same => cases found; subst same; exact ⟨by simp, by simp, by simp⟩
  split at found
  next same => cases found; subst same; exact ⟨by simp, by simp, by simp⟩
  split at found
  next same => cases found; subst same; exact ⟨by simp, by simp, by simp⟩
  split at found
  next same => cases found; subst same; exact ⟨by simp, by simp, by simp⟩
  next => cases found

theorem stoll_failure {text : Str} {failure : Exn} (failed : stoll text = .error failure) (message : Str) :
    failure ≠ .odataParse message := by
  simp only [stoll] at failed
  split at failed
  · cases failed; simp
  · unfold asLongLong at failed
    split at failed <;> cases failed
    simp

theorem stod_failure {text : Str} {failure : Exn} (failed : stod text = .error failure) (message : Str) :
    failure ≠ .odataParse message := by
  simp only [stod] at failed
  split at failed
  · cases failed; simp
  · split at failed
    · cases failed; simp
    · split at failed <;> cases failed
      simp

/-- What one call of `nextToken` can do. -/
inductive NextToken (c : Char) (rest : Str) : Except Exn (Token × Str) → Prop
  | token {token after} : skipLexeme c rest = some after → TokenOf c token →
      (startsNumber c rest → Fits (scanNumber (c :: rest)).1 (scanNumber (c :: rest)).2.1) →
      NextToken c rest (.ok (token, after))
  | malformed {message} : skipLexeme c rest = none → ¬ startsNumber c rest →
      NextToken c rest (.error (.odataParse message))
  | unfit {failure} : (∀ message, failure ≠ .odataParse message) → startsNumber c rest →
      ¬ Fits (scanNumber (c :: rest)).1 (scanNumber (c :: rest)).2.1 → NextToken c rest (.error failure)

theorem nextToken_cases (line : Nat) (c : Char) (rest : Str) (lexeme : ¬ blank c) :
    NextToken c rest (nextToken line c rest) := by
  unfold nextToken
  split
  next quoted =>
    have quoted : isQuote c := quoted
    have number : ¬ startsNumber c rest := by rcases quoted with rfl | rfl <;> simp [startsNumber]
    have plain : ¬ isParen c := by rcases quoted with rfl | rfl <;> simp [isParen]
    split
    next missing => exact .malformed (by simp [skipLexeme, lexeme, quoted, missing]) number
    next value after read =>
      exact .token (by simp [skipLexeme, lexeme, quoted, read]) (.plain plain (by simp) (by simp) (by simp))
        (absurd · number)
  next unquoted =>
    have unquoted : ¬ isQuote c := unquoted
    split
    next starts =>
      have plain := (startsNumber_plain starts).2
      have skipped : skipLexeme c rest = some (scanNumber (c :: rest)).2.2 := by
        simp [skipLexeme, lexeme, unquoted, starts]
      generalize scanned : scanNumber (c :: rest) = number at skipped
      obtain ⟨text, isFloat, after⟩ := number
      cases isFloat with
      | true =>
        simp only [ite_true]
        cases converted : stod text with
        | ok value =>
          exact .token skipped (.plain plain (by simp) (by simp) (by simp)) fun _ => by simp [scanned, Fits, converted]
        | error failure =>
          exact .unfit (stod_failure converted) starts (by simp [scanned, Fits, converted])
      | false =>
        simp only [Bool.false_eq_true, ite_false]
        cases converted : stoll text with
        | ok value =>
          exact .token skipped (.plain plain (by simp) (by simp) (by simp)) fun _ => by simp [scanned, Fits, converted]
        | error failure =>
          exact .unfit (stoll_failure converted) starts (by simp [scanned, Fits, converted])
    next number =>
      split
      next start =>
        have word : ∀ type, type ∉ wordTypes → (wordToken line ((c :: rest).takeWhile isIdentChar)).type ≠ type :=
          fun type other same => other (same ▸ wordToken_type line _)
        exact .token (by simp [skipLexeme, lexeme, unquoted, number, start])
          (.plain (ident_plain (identStart_char start)).2 (word _ (by decide)) (word _ (by decide)) (word _ (by decide)))
          (absurd · number)
      next other =>
        split
        next type found =>
          exact .token (by simp [skipLexeme, lexeme, unquoted, number, other, found]) (punctuation_tokenOf found line)
            (absurd · number)
        next missing => exact .malformed (by simp [skipLexeme, lexeme, unquoted, number, other, missing]) number

/-- Blanks start no numeral. -/
theorem blank_startsNumber {c : Char} (space : blank c) (rest : Str) : ¬ startsNumber c rest := by
  rcases space with rfl | rfl | rfl | rfl <;> simp [startsNumber]

theorem skipLexeme_blank {c : Char} (space : blank c) (rest : Str) : skipLexeme c rest = some rest := by
  simp [skipLexeme, space]

/-- The loop skips a blank, whatever it does with the line number. -/
theorem tokenizeFrom_blank (fuel line : Nat) {c : Char} (space : blank c) (rest : Str) :
    ∃ next, tokenizeFrom (fuel + 1) line (c :: rest) = tokenizeFrom fuel next rest := by
  by_cases newline : c = '\n'
  · subst newline
    exact ⟨line + 1, by simp [tokenizeFrom]⟩
  · have skipped : c = ' ' ∨ c = '\t' ∨ c = '\r' := by
      rcases space with same | same | same | same
      · exact .inl same
      · exact .inr (.inl same)
      · exact .inr (.inr same)
      · exact absurd same newline
    exact ⟨line, by simp [tokenizeFrom, skipped]⟩

theorem tokenizeFrom_lexeme (fuel line : Nat) {c : Char} (lexeme : ¬ blank c) (rest : Str) :
    tokenizeFrom (fuel + 1) line (c :: rest) = (do
      let (token, after) ← nextToken line c rest
      let tokens ← tokenizeFrom fuel line after
      .ok (token :: tokens)) := by
  have first : ¬ (c = ' ' ∨ c = '\t' ∨ c = '\r') := fun same => lexeme (by
    rcases same with same | same | same
    · exact .inl same
    · exact .inr (.inl same)
    · exact .inr (.inr (.inl same)))
  have second : c ≠ '\n' := fun same => lexeme (.inr (.inr (.inr same)))
  simp [tokenizeFrom, first, second]

end DuckdbOdata.Lexemes
