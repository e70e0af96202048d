import Mathlib.Logic.Relation
import DuckdbOdata.Foundation.Lookahead
import DuckdbOdata.Proofs.Lexemes

/-! Tokens as text. The tokenizer looks at one character after a lexeme at most, so
blanks between two tokens change nothing, and the text of the tokens is read as
the same tokens. -/

namespace DuckdbOdata.LexerRoundTrip
open Text Binary64 Lexemes Lookahead

private theorem takeOne_refused {accept : Char → Bool} {text : Str} (refused : ∀ c ∈ text.head?, accept c = false) :
    takeOne accept text = ([], text) := by
  cases text with
  | nil => rfl
  | cons c rest => rw [takeOne, if_neg (by simp [refused c rfl])]

theorem takeOne_local {accept : Char → Bool} (ends : ∀ c, blank c → accept c = false) : Local blank (takeOne accept) where
  suffix := fun input => ⟨(takeOne accept input).1, takeOne_append accept input⟩
  same := by
    intro input rest after other value alike scanned
    cases input with
    | cons c input =>
      simp only [List.cons_append, takeOne] at scanned ⊢
      split at scanned
      next accepted =>
        obtain ⟨rfl, left⟩ := Prod.mk.inj scanned
        rw [if_pos accepted, List.append_cancel_right left]
      next refused =>
        obtain ⟨rfl, left⟩ := Prod.mk.inj scanned
        have same : c :: input = rest := List.append_cancel_right (by simpa using left : (c :: input) ++ after = rest ++ after)
        rw [if_neg refused, ← same]
        rfl
    | nil =>
      -- Nothing is taken here, for all that is left of `after` is `after`.
      have nothing : value = [] ∧ rest = [] ∧ ∀ c ∈ after.head?, accept c = false := by
        have joined := takeOne_append accept after
        rw [List.nil_append] at scanned
        rw [scanned] at joined
        have short := congrArg List.length joined
        simp only [List.length_append] at short
        refine ⟨List.length_eq_zero_iff.mp (by omega), List.length_eq_zero_iff.mp (by omega), ?_⟩
        intro c first
        cases after with
        | nil => cases first
        | cons d after =>
          cases first
          rw [takeOne] at scanned
          split at scanned
          next =>
            obtain ⟨rfl, -⟩ := Prod.mk.inj scanned
            rw [List.length_singleton] at short
            omega
          next refused => exact Bool.eq_false_iff.mpr refused
      obtain ⟨rfl, rfl, refused⟩ := nothing
      refine takeOne_refused fun c first => ?_
      rcases alike with same | separated
      · exact refused c (same ▸ first)
      · exact ends c (separated c first)

theorem digits_local : Local blank fun input => (takeDigits input, dropDigits input) := by
  refine .takeWhile ?_
  rintro c (rfl | rfl | rfl | rfl) <;> rfl

private theorem optional_local (absent : Prop) [Decidable absent] :
    Local blank fun input => (if absent then [] else takeDigits input, if absent then input else dropDigits input) := by
  by_cases none : absent
  · simpa only [none, if_true] using Local.pure ([] : Str)
  · simpa only [none, if_false] using digits_local

theorem scanNumber_local : Local blank fun input => (((scanNumber input).1, (scanNumber input).2.1), (scanNumber input).2.2) := by
  have minus : ∀ c, blank c → (c == '-') = false := by rintro c (rfl | rfl | rfl | rfl) <;> rfl
  have point : ∀ c, blank c → (c == '.') = false := by rintro c (rfl | rfl | rfl | rfl) <;> rfl
  have letter : ∀ c, blank c → (c == 'e' || c == 'E') = false := by rintro c (rfl | rfl | rfl | rfl) <;> rfl
  have either : ∀ c, blank c → (c == '+' || c == '-') = false := by rintro c (rfl | rfl | rfl | rfl) <;> rfl
  have none : Local blank fun input : Str => (([] : Str), input) := .pure []
  exact (takeOne_local minus).bind fun sign => digits_local.bind fun whole => (takeOne_local point).bind fun dot =>
    (optional_local (dot = [])).bind fun fraction => (takeOne_local letter).bind fun marker =>
    (none.ite (takeOne_local either) : Local blank fun input => if marker = [] then _ else _).bind fun exponentSign =>
    (optional_local (marker = [])).map fun exponent =>
    (sign ++ whole ++ dot ++ fraction ++ marker ++ exponentSign ++ exponent, decide (dot ≠ []) || decide (marker ≠ []))

private theorem scanNumber_minus {d : Char} (digit : d.isDigit = true) (rest : Str) :
    ∃ more, (scanNumber ('-' :: d :: rest)).1 = '-' :: d :: more := by
  simp [scanNumber, takeOne, takeDigits, digit]

private theorem startsNumber_char {c : Char} {rest : Str} (starts : startsNumber c rest = true) : c.isDigit = true ∨ c = '-' := by
  simp only [startsNumber, Bool.or_eq_true, Bool.and_eq_true, beq_iff_eq] at starts
  exact starts.imp_right And.left

private theorem startsNumber_digit {c : Char} (digit : c.isDigit = true) (rest : Str) : startsNumber c rest = true := by
  rw [startsNumber, digit, Bool.true_or]

private theorem startsNumber_local {c : Char} {body after : Str} (starts : startsNumber c (body ++ after) = true)
    (text : (scanNumber (c :: (body ++ after))).1 = c :: body) (other : Str) : startsNumber c (body ++ other) = true := by
  rcases startsNumber_char starts with digit | rfl
  · exact startsNumber_digit digit _
  · cases body with
    | cons d body => exact starts
    | nil =>
      cases after with
      | nil => cases starts
      | cons d after =>
        have digit : d.isDigit = true := starts
        obtain ⟨more, same⟩ := scanNumber_minus digit after
        cases same.symm.trans text

private theorem isIdentStart_number {c : Char} (start : isIdentStart c = true) : ¬ (c.isDigit = true ∨ c = '-') := by
  rintro (digit | rfl)
  · have other : ∀ n < 58, isIdentStart (Char.ofNat n) = false := by decide
    have bound : c.toNat ≤ 57 := (Char.isDigit_iff_toNat.mp digit).2
    rw [← Char.ofNat_toNat c, other c.toNat (Nat.lt_succ_of_le bound)] at start
    cases start
  · exact absurd start (by decide)

private theorem punctuation_char {c : Char} {type : TokenType} (found : punctuation c = some type) :
    c = '(' ∨ c = ')' ∨ c = ',' ∨ c = ':' := by
  unfold punctuation at found
  split at found
  next same => exact .inl same
  split at found
  next same => exact .inr (.inl same)
  split at found
  next same => exact .inr (.inr (.inl same))
  split at found
  next same => exact .inr (.inr (.inr same))
  next => cases found

private theorem punctuation_number {c : Char} {type : TokenType} (found : punctuation c = some type) :
    ¬ (c.isDigit = true ∨ c = '-') := by
  rcases punctuation_char found with rfl | rfl | rfl | rfl <;> decide

private theorem isIdentStart_quote {c : Char} (start : isIdentStart c = true) : ¬ isQuote c := by
  rintro (rfl | rfl) <;> cases start

private theorem punctuation_other {c : Char} {type : TokenType} (found : punctuation c = some type) :
    ¬ isQuote c ∧ ¬ isIdentStart c = true := by
  rcases punctuation_char found with rfl | rfl | rfl | rfl <;> decide

/-- The token of a numeral. -/
def numberToken (line : Nat) (text : Str) (isFloat : Bool) : Except Exn Token :=
  if isFloat then (stod text).map fun value => { type := .float, text, floatValue := value, line }
  else (stoll text).map fun result => { type := .integer, text, intValue := result.1, line }

/-- The four kinds of lexemes. -/
inductive Scanned (line : Nat) (c : Char) (rest : Str) : Token → Str → Prop
  | quoted {value after} : isQuote c → readQuoted c rest = some (value, after) →
      Scanned line c rest { type := .string, text := value, line } after
  | number {token} : ¬ isQuote c → startsNumber c rest = true →
      numberToken line (scanNumber (c :: rest)).1 (scanNumber (c :: rest)).2.1 = .ok token →
      Scanned line c rest token (scanNumber (c :: rest)).2.2
  | word : isIdentStart c = true →
      Scanned line c rest (wordToken line ((c :: rest).takeWhile isIdentChar)) ((c :: rest).dropWhile isIdentChar)
  | mark {type} : punctuation c = some type → Scanned line c rest { type, text := [c], line } rest

private theorem nextToken_number {line : Nat} {c : Char} {rest : Str} (unquoted : ¬ (c = '\'' ∨ c = '"'))
    (starts : startsNumber c rest = true) :
    nextToken line c rest = (numberToken line (scanNumber (c :: rest)).1 (scanNumber (c :: rest)).2.1).map fun token =>
      (token, (scanNumber (c :: rest)).2.2) := by
  rw [nextToken, if_neg unquoted, if_pos starts]
  generalize scanNumber (c :: rest) = number
  obtain ⟨text, isFloat, left⟩ := number
  cases isFloat with
  | true =>
    dsimp only
    rw [numberToken, if_pos rfl, if_pos rfl]
    cases stod text <;> rfl
  | false =>
    dsimp only
    rw [numberToken, if_neg (by decide), if_neg (by decide)]
    cases stoll text <;> rfl

theorem nextToken_scanned {line : Nat} {c : Char} {rest after : Str} {token : Token} :
    nextToken line c rest = .ok (token, after) ↔ Scanned line c rest token after := by
  constructor
  · intro next
    by_cases quoted : c = '\'' ∨ c = '"'
    · rw [nextToken, if_pos quoted] at next
      split at next
      next => cases next
      next value left read =>
        cases next
        exact .quoted quoted read
    by_cases starts : startsNumber c rest = true
    · rw [nextToken_number quoted starts] at next
      cases converted : numberToken line (scanNumber (c :: rest)).1 (scanNumber (c :: rest)).2.1 with
      | error failure =>
        rw [converted] at next
        cases next
      | ok token =>
        rw [converted] at next
        cases next
        exact .number quoted starts converted
    rw [nextToken, if_neg quoted, if_neg starts] at next
    split at next
    next start =>
      cases next
      exact .word start
    next =>
      split at next
      next type found =>
        cases next
        exact .mark found
      next => cases next
  · intro scanned
    cases scanned with
    | quoted quoted read =>
      have quoted : c = '\'' ∨ c = '"' := quoted
      rw [nextToken, if_pos quoted, read]
    | number unquoted starts converted =>
      rw [nextToken_number unquoted starts, converted]
      rfl
    | word start =>
      have unquoted : ¬ (c = '\'' ∨ c = '"') := isIdentStart_quote start
      rw [nextToken, if_neg unquoted, if_neg fun starts => isIdentStart_number start (startsNumber_char starts), if_pos start]
    | mark found =>
      have unquoted : ¬ (c = '\'' ∨ c = '"') := (punctuation_other found).1
      rw [nextToken, if_neg unquoted, if_neg fun starts => punctuation_number found (startsNumber_char starts),
        if_neg (punctuation_other found).2, found]

/-- A token at another line. -/
def place (line : Nat) (token : Token) : Token := { token with line }

private theorem numberToken_place {line : Nat} {text : Str} {isFloat : Bool} {token : Token}
    (converted : numberToken line text isFloat = .ok token) (other : Nat) :
    numberToken other text isFloat = .ok (place other token) ∧ token.text = text ∧ token.type ≠ .string := by
  unfold numberToken at converted ⊢
  split at converted
  next isFloat =>
    rw [if_pos isFloat]
    cases value : stod text with
    | error failure =>
      rw [value] at converted
      cases converted
    | ok value' =>
      rw [value] at converted
      cases converted
      exact ⟨rfl, rfl, nofun⟩
  next isInteger =>
    rw [if_neg isInteger]
    cases value : stoll text with
    | error failure =>
      rw [value] at converted
      cases converted
    | ok value' =>
      rw [value] at converted
      cases converted
      exact ⟨rfl, rfl, nofun⟩

private theorem wordToken_place (line other : Nat) (text : Str) : wordToken other text = place other (wordToken line text) := by
  unfold wordToken
  split <;> rfl

/-- The token does not depend on what follows its lexeme. -/
theorem Scanned.local {line : Nat} {c : Char} {body after other : Str} {token : Token} (lexeme : ¬ blank c)
    (scanned : Scanned line c (body ++ after) token after) (alike : Alike blank after other) (line' : Nat) :
    Scanned line' c (body ++ other) (place line' token) other := by
  generalize whole : body ++ after = rest at scanned
  generalize left : after = remaining at scanned
  cases scanned with
  | @quoted value _ quoted read =>
    subst left whole
    obtain ⟨whole, closed⟩ := readQuoted_split c _ read
    have inside : body = double c value ++ [c] :=
      List.append_cancel_right (by simpa using whole : body ++ after = (double c value ++ [c]) ++ after)
    have closes : Closed c other := by
      intro first
      rcases alike with same | separated
      · exact closed (same ▸ first)
      · exact lexeme (separated c first)
    refine .quoted quoted ?_
    rw [inside, List.append_assoc, List.singleton_append, readQuoted_double c value other closes]
  | number unquoted starts converted =>
    subst whole
    have joined := scanNumber_append (c :: (body ++ after))
    rw [← left] at joined
    have text : (scanNumber (c :: (body ++ after))).1 = c :: body := List.append_cancel_right (joined : _ ++ after = (c :: body) ++ after)
    have same := scanNumber_local.same (c :: body) [] alike (Prod.ext rfl left.symm)
    obtain ⟨values, rest⟩ := Prod.mk.inj same
    obtain ⟨texts, floats⟩ := Prod.mk.inj values
    have moved := @Scanned.number line' c (body ++ other) (place line' token) unquoted (startsNumber_local starts text other) (by
      rw [← List.cons_append, texts, floats]
      exact (numberToken_place converted line').1)
    rwa [← List.cons_append, rest, List.nil_append] at moved
  | word start =>
    subst whole
    have letters : ∀ c, blank c → isIdentChar c = false := by rintro c (rfl | rfl | rfl | rfl) <;> rfl
    have same := (Local.takeWhile letters).same (c :: body) [] alike (Prod.ext rfl left.symm)
    obtain ⟨text, rest⟩ := Prod.mk.inj same
    have moved := @Scanned.word line' c (body ++ other) start
    rw [← List.cons_append, text, rest, wordToken_place line line'] at moved
    exact moved
  | mark found =>
    have none : body = [] := List.append_left_eq_self.mp (whole.trans left.symm)
    subst none left
    exact .mark found

/-- A string in single quotes, its own quotes doubled; any other token as its text. -/
def render (token : Token) : Str := if token.type = .string then enquote '\'' token.text else token.text

def renderTokens (tokens : List Token) : Str := [' '].intercalate (tokens.map render)

def Separated (rest : Str) : Prop := ∀ c ∈ rest.head?, blank c

/-- The text is read as the token before any separator. -/
def Lexes (text : Str) (token : Token) : Prop :=
  ∃ c body, text = c :: body ∧ ¬ blank c ∧
    ∀ line rest, Separated rest → Scanned line c (body ++ rest) (place line token) rest

theorem Scanned.lexes {line : Nat} {c : Char} {body after : Str} {token : Token} (lexeme : ¬ blank c)
    (scanned : Scanned line c (body ++ after) token after) : Lexes (c :: body) token :=
  ⟨c, body, rfl, lexeme, fun line' _ separated => scanned.local lexeme (.inr separated) line'⟩

theorem lexes_string (value : Str) (line : Nat) : Lexes (enquote '\'' value) { type := .string, text := value, line } := by
  refine ⟨'\'', double '\'' value ++ ['\''], rfl, by decide, fun line' rest separated => ?_⟩
  have closes : Closed '\'' rest := fun first => absurd (separated _ first) (by decide)
  have read := readQuoted_double '\'' value rest closes
  refine .quoted (.inl rfl) ?_
  rwa [List.append_assoc]

theorem render_text {token : Token} (typed : token.type ≠ .string) : render token = token.text := if_neg typed

/-- The text of an identifier or a keyword. -/
def IsWord : Str → Prop
  | [] => False
  | c :: rest => isIdentStart c = true ∧ ∀ d ∈ rest, isIdentChar d = true

instance : DecidablePred IsWord
  | [] => .isFalse id
  | c :: rest => decidable_of_iff (isIdentStart c = true ∧ rest.all isIdentChar = true) (and_congr_right fun _ => List.all_eq_true)

theorem lexes_word {text : Str} (word : IsWord text) (line : Nat) : Lexes text (wordToken line text) := by
  cases text with
  | nil => exact word.elim
  | cons c body =>
    obtain ⟨start, letters⟩ := word
    have solid : ¬ blank c := by
      rintro (rfl | rfl | rfl | rfl) <;> cases start
    refine ⟨c, body, rfl, solid, fun line' rest separated => ?_⟩
    have all : ∀ d ∈ c :: body, isIdentChar d = true := List.forall_mem_cons.mpr ⟨identStart_char start, letters⟩
    have stop : ∀ d ∈ rest.head?, isIdentChar d = false := by
      intro d first
      rcases separated d first with rfl | rfl | rfl | rfl <;> rfl
    obtain ⟨taken, left⟩ := span_stops all stop
    have scanned := @Scanned.word line' c (body ++ rest) start
    rwa [← List.cons_append, taken, left, wordToken_place line line'] at scanned

/-- The words that the tokenizer writes in lower case. -/
def operatorWords : List Str := ["eq", "ne", "gt", "ge", "lt", "le", "and", "or", "not", "null"].map String.toList

theorem keywordType_operator {lower : Str} (boolean : keywordType lower ≠ .boolean) (identifier : keywordType lower ≠ .identifier) :
    lower ∈ operatorWords := by
  by_contra missing
  have other : ∀ word ∈ operatorWords, lower ≠ word := fun word member same => missing (same ▸ member)
  have neither : keywordType lower = if lower = "true".toList ∨ lower = "false".toList then .boolean else .identifier := by
    rw [keywordType, if_neg (other _ (by decide)), if_neg (other _ (by decide)), if_neg (other _ (by decide)),
      if_neg (other _ (by decide)), if_neg (other _ (by decide)), if_neg (other _ (by decide)), if_neg (other _ (by decide)),
      if_neg (other _ (by decide)), if_neg (other _ (by decide)), if_neg (other "null".toList (by decide))]
  rw [neither] at boolean identifier
  split at boolean
  next => exact boolean rfl
  next plain => exact identifier (if_neg plain)

/-- The text of a word is the word or an operator in lower case, and it is the same
token again. -/
theorem wordToken_text (line : Nat) {text : Str} (word : IsWord text) :
    IsWord (wordToken line text).text ∧ wordToken line (wordToken line text).text = wordToken line text ∧
      (wordToken line text).type ≠ .string := by
  have operators : ∀ lower ∈ operatorWords, IsWord lower ∧ toLower lower = lower := every (by decide)
  unfold wordToken
  split
  next boolean => exact ⟨word, by rw [boolean], nofun⟩
  next null => exact ⟨(operators "null".toList (by decide)).1, rfl, nofun⟩
  next identifier => exact ⟨word, by rw [identifier], nofun⟩
  next boolean null identifier =>
    obtain ⟨formed, lower⟩ := operators _ (keywordType_operator boolean identifier)
    have typed : keywordType (toLower text) ≠ .string := fun same => by
      have known := keywordType_mem (toLower text)
      rw [same] at known
      exact absurd known (by decide)
    refine ⟨formed, ?_, typed⟩
    dsimp only
    rw [lower]
    split
    next same => exact absurd same boolean
    next same => exact absurd same null
    next same => exact absurd same identifier
    next => rfl

theorem Scanned.renders {line : Nat} {c : Char} {rest after : Str} {token : Token} (lexeme : ¬ blank c)
    (scanned : Scanned line c rest token after) : Lexes (render token) token := by
  have whole := scanned
  cases scanned with
  | quoted _ _ => exact lexes_string _ line
  | number unquoted starts converted =>
    obtain ⟨-, text, typed⟩ := numberToken_place converted line
    obtain ⟨body, start⟩ := scanNumber_starts starts
    have joined := scanNumber_append (c :: rest)
    rw [render_text typed, text, start]
    rw [start] at joined
    generalize (scanNumber (c :: rest)).2.2 = after at whole joined
    obtain rfl : body ++ after = rest := (List.cons.inj joined).2
    exact whole.lexes lexeme
  | word start =>
    have word : IsWord ((c :: rest).takeWhile isIdentChar) := by
      rw [List.takeWhile_cons_of_pos (identStart_char start)]
      exact ⟨start, fun d member => List.mem_takeWhile_imp member⟩
    obtain ⟨formed, same, typed⟩ := wordToken_text line word
    rw [render_text typed]
    have lexes := lexes_word formed line
    rwa [same] at lexes
  | @mark type found =>
    have typed : type ≠ .string := by
      rcases punctuation_char found with rfl | rfl | rfl | rfl <;> cases found <;> exact nofun
    rw [render_text typed]
    have alone : Scanned line c ([] ++ rest) _ rest := whole
    exact alone.lexes lexeme

/-- A token without its line. -/
def unlined (token : Token) : Token := place 1 token

/-- The tokens that a text is read as, up to their lines. -/
inductive Reads : Str → List Token → Prop
  | done : Reads [] [{ type := .end }]
  | blank {c rest tokens} : blank c → Reads rest tokens → Reads (c :: rest) tokens
  | token {line c rest token after tokens} : ¬ blank c → Scanned line c rest token after → Reads after tokens →
      Reads (c :: rest) (unlined token :: tokens)

/-- What the tokenizer makes of a text, up to the lines. -/
def RereadsAs (text : Str) (tokens : List Token) : Prop :=
  ∃ again, tokenize text = .ok again ∧ again.map unlined = tokens.map unlined

private theorem Scanned.split {line : Nat} {c : Char} {rest after : Str} {token : Token} (lexeme : ¬ blank c)
    (scanned : Scanned line c rest token after) : ∃ body, body ++ after = rest := by
  have cases := nextToken_cases line c rest lexeme
  rw [nextToken_scanned.mpr scanned] at cases
  cases cases with
  | token skipped _ _ =>
    by_cases quoted : isQuote c
    · obtain ⟨value, rfl, -⟩ := skipLexeme_quoted skipped quoted
      exact ⟨double c value ++ [c], by simp⟩
    · obtain ⟨body, rfl, -⟩ := skipLexeme_plain skipped quoted
      exact ⟨body, rfl⟩

private theorem Scanned.moves {line : Nat} {c : Char} {rest after : Str} {token : Token} (lexeme : ¬ blank c)
    (scanned : Scanned line c rest token after) (line' : Nat) : Scanned line' c rest (place line' token) after := by
  obtain ⟨body, rfl⟩ := scanned.split lexeme
  exact scanned.local lexeme (.refl after) line'

theorem tokenizeFrom_reads {fuel line : Nat} {text : Str} {tokens : List Token} (done : tokenizeFrom fuel line text = .ok tokens) :
    Reads text (tokens.map unlined) := by
  induction fuel generalizing line text tokens with
  | zero =>
    cases text with
    | nil =>
      cases done
      exact .done
    | cons c rest => cases done
  | succ fuel ih =>
    cases text with
    | nil =>
      cases done
      exact .done
    | cons c rest =>
      by_cases space : Lexemes.blank c
      · obtain ⟨next, skipped⟩ := tokenizeFrom_blank fuel line space rest
        exact .blank space (ih (skipped ▸ done))
      · rw [tokenizeFrom_lexeme fuel line space rest] at done
        cases next : nextToken line c rest with
        | error failure =>
          rw [next] at done
          cases done
        | ok found =>
          obtain ⟨token, after⟩ := found
          rw [next] at done
          have more : (tokenizeFrom fuel line after >>= fun tokens => Except.ok (token :: tokens)) = .ok tokens := done
          cases others : tokenizeFrom fuel line after with
          | error failure =>
            rw [others] at more
            cases more
          | ok later =>
            rw [others] at more
            cases more
            exact .token space (nextToken_scanned.mp next) (ih others)

theorem Reads.tokenizeFrom {text : Str} {tokens : List Token} (reads : Reads text tokens) (fuel line : Nat)
    (enough : text.length ≤ fuel) : ∃ again, tokenizeFrom fuel line text = .ok again ∧ again.map unlined = tokens := by
  induction reads generalizing fuel line with
  | done =>
    refine ⟨[{ type := .end }], ?_, rfl⟩
    cases fuel <;> rfl
  | @blank c rest tokens space _ ih =>
    obtain ⟨fuel, rfl⟩ := Nat.exists_eq_add_of_le' (show 1 ≤ fuel from le_trans (by simp) enough)
    obtain ⟨next, skipped⟩ := tokenizeFrom_blank fuel line space rest
    obtain ⟨again, done, same⟩ := ih fuel next (Nat.le_of_succ_le_succ enough)
    exact ⟨again, skipped.trans done, same⟩
  | @token place' c rest token after tokens solid scanned _ ih =>
    obtain ⟨fuel, rfl⟩ := Nat.exists_eq_add_of_le' (show 1 ≤ fuel from le_trans (by simp) enough)
    obtain ⟨body, whole⟩ := scanned.split solid
    have shorter : after.length ≤ fuel := by
      rw [← whole] at enough
      simp only [List.length_cons, List.length_append] at enough
      omega
    obtain ⟨again, done, same⟩ := ih fuel line shorter
    refine ⟨place line token :: again, ?_, by rw [List.map_cons, same]; rfl⟩
    rw [tokenizeFrom_lexeme fuel line solid, nextToken_scanned.mpr (scanned.moves solid line)]
    show (DuckdbOdata.tokenizeFrom fuel line after >>= _) = _
    rw [done]
    rfl

theorem Reads.rereads {text : Str} {tokens : List Token} (reads : Reads text (tokens.map unlined)) : RereadsAs text tokens :=
  reads.tokenizeFrom text.length 1 le_rfl

theorem Lexes.reads {text rest : Str} {token : Token} {tokens : List Token} (lexes : Lexes text token) (separated : Separated rest)
    (reads : Reads rest tokens) : Reads (text ++ rest) (unlined token :: tokens) := by
  obtain ⟨c, body, rfl, solid, scanned⟩ := lexes
  have first := Reads.token solid (scanned 1 rest separated) reads
  exact first

theorem renderTokens_cons (token : Token) {tokens : List Token} (more : tokens ≠ []) :
    renderTokens (token :: tokens) = render token ++ ' ' :: renderTokens tokens := by
  obtain ⟨next, tokens, rfl⟩ := List.exists_cons_of_ne_nil more
  rw [renderTokens, List.map_cons, List.map_cons, List.intercalate_cons_cons]
  simp [renderTokens]

private theorem Reads.tokens_ne {text : Str} {tokens : List Token} (reads : Reads text tokens) : tokens ≠ [] := by
  induction reads with
  | done => exact List.cons_ne_nil _ _
  | blank _ _ ih => exact ih
  | token _ _ _ _ => exact List.cons_ne_nil _ _

/-- The text of the tokens is read as the tokens. -/
theorem Reads.render {text : Str} {tokens : List Token} (reads : Reads text tokens) : Reads (renderTokens tokens) tokens := by
  induction reads with
  | done => exact .done
  | blank _ _ ih => exact ih
  | @token line c rest token after tokens solid scanned later ih =>
    have separated : Separated (' ' :: renderTokens tokens) := fun c first => Option.some.inj first ▸ .inl rfl
    rw [renderTokens_cons _ later.tokens_ne]
    exact (scanned.renders solid).reads separated (.blank (.inl rfl) ih)

/-- Before `rest` the tokenizer stands between two tokens of `front ++ rest`. -/
inductive Boundary (rest : Str) : Str → Prop
  | here : Boundary rest []
  | blank {c front} : blank c → Boundary rest front → Boundary rest (c :: front)
  | token {line c body front token} : ¬ blank c → nextToken line c (body ++ (front ++ rest)) = .ok (token, front ++ rest) →
      Boundary rest front → Boundary rest (c :: (body ++ front))

/-- Blanks put between two tokens. -/
inductive Spaced : Str → Str → Prop
  | insert {front rest blanks} : Boundary rest front → (∀ c ∈ blanks, blank c) → Spaced (front ++ rest) (front ++ (blanks ++ rest))

private theorem Reads.blanks {rest blanks : Str} {tokens : List Token} (reads : Reads rest tokens) (all : ∀ c ∈ blanks, Lexemes.blank c) :
    Reads (blanks ++ rest) tokens := by
  induction blanks with
  | nil => exact reads
  | cons c blanks ih => exact .blank (all c List.mem_cons_self) (ih fun d member => all d (List.mem_cons_of_mem _ member))

theorem Boundary.reads {rest front blanks : Str} {tokens : List Token} (boundary : Boundary rest front)
    (all : ∀ c ∈ blanks, Lexemes.blank c) (reads : Reads (front ++ rest) tokens) : Reads (front ++ (blanks ++ rest)) tokens := by
  induction boundary generalizing tokens with
  | here => exact reads.blanks all
  | blank space _ ih =>
    cases reads with
    | blank _ later => exact .blank space (ih later)
    | token solid _ _ => exact absurd space solid
  | @token line c body front token solid next _ ih =>
    rw [List.cons_append, List.append_assoc] at reads
    cases reads with
    | blank space _ => exact absurd space solid
    | @token line' _ _ token' after tokens _ scanned later =>
      -- The two scans start at the same lexeme, so they stop at the same place.
      have first := nextToken_scanned.mp next
      have again := (nextToken_scanned.mpr (first.moves solid line')).symm.trans (nextToken_scanned.mpr scanned)
      obtain ⟨rfl, rfl⟩ := Prod.mk.inj (Except.ok.inj again)
      have alike : Alike Lexemes.blank (front ++ rest) (front ++ (blanks ++ rest)) := by
        refine Alike.append ?_ front
        cases blanks with
        | nil => exact .refl rest
        | cons c blanks => exact .separated (all c List.mem_cons_self)
      have moved := Reads.token solid (first.local solid alike line') (ih later)
      rw [List.cons_append, List.append_assoc]
      exact moved

/-- What the tokenizer accepts is read as the same tokens after they are written with
single blanks between them, and after any blanks are put between them. -/
theorem lexer_round_trip {input : Str} {tokens : List Token} (lexed : tokenize input = .ok tokens) :
    RereadsAs (renderTokens tokens) tokens ∧ ∀ spaced, Relation.ReflTransGen Spaced input spaced → RereadsAs spaced tokens := by
  have reads := tokenizeFrom_reads lexed
  constructor
  · have rendered : renderTokens (tokens.map unlined) = renderTokens tokens := by
      rw [renderTokens, List.map_map]
      rfl
    exact (rendered ▸ reads.render).rereads
  · intro spaced steps
    refine Reads.rereads ?_
    induction steps with
    | refl => exact reads
    | tail _ step ih =>
      cases step with
      | insert boundary all => exact boundary.reads all ih

/-- `a eq 'b'` -/
theorem lexer_round_trip_eq : RereadsAs (renderTokens
      [{ type := .identifier, text := ['a'] }, { type := .eq, text := "eq".toList }, { type := .string, text := ['b'] }, { type := .end }])
      [{ type := .identifier, text := ['a'] }, { type := .eq, text := "eq".toList }, { type := .string, text := ['b'] }, { type := .end }] ∧
    ∀ spaced, Relation.ReflTransGen Spaced "a EQ\"b\"".toList spaced → RereadsAs spaced
      [{ type := .identifier, text := ['a'] }, { type := .eq, text := "eq".toList }, { type := .string, text := ['b'] }, { type := .end }] :=
  lexer_round_trip (show tokenize "a EQ\"b\"".toList = .ok _ from rfl)

end DuckdbOdata.LexerRoundTrip
