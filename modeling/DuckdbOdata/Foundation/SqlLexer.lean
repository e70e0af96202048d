import Mathlib.Data.List.TakeWhile
import DuckdbOdata.Foundation.Text

/-! The lexical structure of SQL: quoted strings and identifiers with doubled
quotes and no backslash escapes, numerals, words, operators, and comments. -/

namespace Sql
open Text

inductive Token
  | ident (name : Str)
  | str (value : Str)
  | num (digits : Str)
  | word (name : Str)
  | op (symbol : Str)
  | punct (c : Char)
  | comment
deriving DecidableEq, Repr

def isBlank (c : Char) : Bool :=
  c == ' ' || c == '\t' || c == '\n' || c == '\r' || c == Char.ofNat 11 || c == Char.ofNat 12

def isWordStart (c : Char) : Bool := c.isAlpha || c == '_' || 128 ≤ c.toNat

def isWordChar (c : Char) : Bool := isWordStart c || c.isDigit || c == '$'

/-- A numeral runs on over points, exponents and letters. -/
def isNumChar (c : Char) : Bool := isWordChar c || c == '.'

def isOpChar (c : Char) : Bool := "+-*/<>=~!@#%^&|?".toList.contains c

def startsComment : Str → Bool
  | '-' :: '-' :: _ => true
  | '/' :: '*' :: _ => true
  | _ => false

/-- Operator characters up to the first that starts a comment. -/
def operatorRun : Str → Str × Str
  | [] => ([], [])
  | c :: rest =>
    if isOpChar c && !startsComment (c :: rest) then (c :: (operatorRun rest).1, (operatorRun rest).2)
    else ([], c :: rest)

def afterBlock : Str → Str
  | '*' :: '/' :: rest => rest
  | _ :: rest => afterBlock rest
  | [] => []

def afterComment : Str → Str
  | '-' :: rest => rest.dropWhile (· ≠ '\n')
  | _ :: rest => afterBlock rest.tail
  | [] => []

/-- The token that `c :: rest` starts with, and the rest. -/
def lexOne (c : Char) (rest : Str) : Option (Token × Str) :=
  if c = '\'' then (readQuoted '\'' rest).map fun (value, after) => (.str value, after)
  else if c = '"' then (readQuoted '"' rest).map fun (name, after) => (.ident name, after)
  else if startsComment (c :: rest) then some (.comment, afterComment (c :: rest))
  else if isOpChar c then some (.op (c :: (operatorRun rest).1), (operatorRun rest).2)
  else if c.isDigit then some (.num (c :: rest.takeWhile isNumChar), rest.dropWhile isNumChar)
  else if isWordStart c then some (.word (c :: rest.takeWhile isWordChar), rest.dropWhile isWordChar)
  else some (.punct c, rest)

def lexFrom : Nat → Str → Option (List Token)
  | _, [] => some []
  | 0, _ :: _ => none
  | fuel + 1, c :: rest =>
    if isBlank c then lexFrom fuel rest
    else match lexOne c rest with
      | none => none
      | some (token, after) => (lexFrom fuel after).map (token :: ·)

/-- The tokens of a text; `none` if a quote is never closed. -/
def lex (text : Str) : Option (List Token) := lexFrom text.length text

theorem operatorRun_length (text : Str) : (operatorRun text).2.length ≤ text.length := by
  induction text with
  | nil => rfl
  | cons c rest ih =>
    rw [operatorRun]
    split
    · exact ih.trans (Nat.le_succ _)
    · exact le_rfl

theorem afterBlock_length (text : Str) : (afterBlock text).length ≤ text.length := by
  induction text using afterBlock.induct with
  | case1 rest => simp only [afterBlock, List.length_cons]; omega
  | case2 c rest other ih =>
    rw [afterBlock.eq_def]
    split
    · simp_all
    · simp_all only [List.cons.injEq, List.length_cons]; omega
    · simp
  | case3 => exact le_rfl

private theorem afterComment_length {c : Char} {rest : Str} : (afterComment (c :: rest)).length ≤ rest.length := by
  unfold afterComment
  split
  next same => cases same; exact List.length_dropWhile_le _ _
  next same => cases same; exact (afterBlock_length _).trans (by simp)
  next same => cases same

theorem lexOne_length {c : Char} {rest after : Str} {token : Token} (read : lexOne c rest = some (token, after)) :
    after.length ≤ rest.length := by
  unfold lexOne at read
  split at read
  next =>
    obtain ⟨⟨value, tail⟩, found, same⟩ := Option.map_eq_some_iff.mp read
    cases same
    exact (readQuoted_shorter _ _ found).le
  split at read
  next =>
    obtain ⟨⟨value, tail⟩, found, same⟩ := Option.map_eq_some_iff.mp read
    cases same
    exact (readQuoted_shorter _ _ found).le
  split at read
  next => cases read; exact afterComment_length
  split at read
  next => cases read; exact operatorRun_length rest
  split at read
  next => cases read; exact List.length_dropWhile_le _ _
  split at read
  next => cases read; exact List.length_dropWhile_le _ _
  next => cases read; exact le_rfl

theorem lexFrom_fuel (fuel : Nat) (text : Str) (enough : text.length ≤ fuel) : lexFrom fuel text = lex text := by
  have agree : ∀ first second text, text.length ≤ first → text.length ≤ second → lexFrom first text = lexFrom second text := by
    intro first
    induction first with
    | zero =>
      intro second text bound _
      rw [List.length_eq_zero_iff.mp (Nat.le_zero.mp bound)]
      cases second <;> rfl
    | succ first ih =>
      intro second text bound other
      cases text with
      | nil => cases second <;> rfl
      | cons c rest =>
        cases second with
        | zero => simp at other
        | succ second =>
          simp only [List.length_cons, Nat.add_le_add_iff_right] at bound other
          simp only [lexFrom]
          split
          · exact ih second rest bound other
          · split
            next => rfl
            next token after read =>
              rw [ih second after ((lexOne_length read).trans bound) ((lexOne_length read).trans other)]
  exact agree fuel text.length text enough le_rfl

@[simp] theorem lex_nil : lex [] = some [] := rfl

theorem lex_blank {c : Char} (blank : isBlank c) (rest : Str) : lex (c :: rest) = lex rest := by
  simp [lex, lexFrom, blank]

theorem lex_cons {c : Char} {rest : Str} (token : Token) (after : Str) (solid : isBlank c = false)
    (read : lexOne c rest = some (token, after)) : lex (c :: rest) = (lex after).map (token :: ·) := by
  rw [← lexFrom_fuel rest.length after (lexOne_length read)]
  simp [lex, lexFrom, solid, read]

/-- What may follow a token without running into it. -/
def breaks (c : Char) : Prop := isBlank c ∨ c = '(' ∨ c = ')' ∨ c = ','

def Separated (rest : Str) : Prop := ∀ c, rest.head? = some c → breaks c

/-- `text` has these tokens whatever follows it. -/
def Opens (text : Str) (tokens : List Token) : Prop := ∀ rest, lex (text ++ rest) = (lex rest).map (tokens ++ ·)

/-- `text` has these tokens if a break or nothing follows it. -/
def Lexes (text : Str) (tokens : List Token) : Prop :=
  ∀ rest, Separated rest → lex (text ++ rest) = (lex rest).map (tokens ++ ·)

theorem separated_nil : Separated [] := nofun

theorem Separated.of {c : Char} {rest : Str} (breaks : breaks c) : Separated (c :: rest) := by
  intro d same
  cases same
  exact breaks

theorem Lexes.lex {text : Str} {tokens : List Token} (lexes : Lexes text tokens) : lex text = some tokens := by
  simpa using lexes [] separated_nil

theorem Opens.lexes {text : Str} {tokens : List Token} (opens : Opens text tokens) : Lexes text tokens :=
  fun rest _ => opens rest

theorem opens_nil : Opens [] [] := fun rest => by simp

theorem Opens.append {first last : Str} {before after : List Token} (opens : Opens first before) (more : Opens last after) :
    Opens (first ++ last) (before ++ after) := by
  intro rest
  rw [List.append_assoc, opens, more, Option.map_map]
  simp [Function.comp_def]

theorem Opens.then {first last : Str} {before after : List Token} (opens : Opens first before) (more : Lexes last after) :
    Lexes (first ++ last) (before ++ after) := by
  intro rest separated
  rw [List.append_assoc, opens, more rest separated, Option.map_map]
  simp [Function.comp_def]

/-- A text that starts with a break may follow any token. -/
theorem Lexes.opens {first last : Str} {before after : List Token} {c : Char} {tail : Str} (lexes : Lexes first before)
    (more : Opens last after) (starts : last = c :: tail) (break' : breaks c) : Opens (first ++ last) (before ++ after) := by
  intro rest
  have separated : Separated (last ++ rest) := by rw [starts]; exact .of break'
  rw [List.append_assoc, lexes _ separated, more, Option.map_map]
  simp [Function.comp_def]

theorem Lexes.then {first last : Str} {before after : List Token} {c : Char} {tail : Str} (lexes : Lexes first before)
    (more : Lexes last after) (starts : last = c :: tail) (break' : breaks c) : Lexes (first ++ last) (before ++ after) := by
  intro rest separated
  have between : Separated (last ++ rest) := by rw [starts]; exact .of break'
  rw [List.append_assoc, lexes _ between, more rest separated, Option.map_map]
  simp [Function.comp_def]

theorem opens_blank {c : Char} (blank : isBlank c) : Opens [c] [] := by
  intro rest
  rw [List.singleton_append, lex_blank blank]
  simp

private theorem breaks_plain {c : Char} (break' : breaks c) :
    c ≠ '\'' ∧ c ≠ '"' ∧ isOpChar c = false ∧ isNumChar c = false ∧ isWordChar c = false := by
  rcases break' with blank | rfl | rfl | rfl
  · simp only [isBlank, Bool.or_eq_true, beq_iff_eq] at blank
    rcases blank with ((((rfl | rfl) | rfl) | rfl) | rfl) | rfl <;> decide
  all_goals decide

private theorem startsComment_other {c : Char} (operator : isOpChar c = false) (rest : Str) :
    startsComment (c :: rest) = false := by
  unfold startsComment
  split
  next same => cases same; simp [isOpChar] at operator
  next same => cases same; simp [isOpChar] at operator
  next => rfl

/-- Punctuation outside the character classes is a token by itself. -/
theorem opens_punct {c : Char} (solid : isBlank c = false) (quote : c ≠ '\'') (double : c ≠ '"')
    (operator : isOpChar c = false) (digit : c.isDigit = false) (word : isWordStart c = false) :
    Opens [c] [.punct c] := by
  intro rest
  rw [List.singleton_append, lex_cons (.punct c) rest solid]
  · rfl
  · simp [lexOne, quote, double, startsComment_other operator, operator, digit, word]

private theorem Separated.closed {quote : Char} {rest : Str} (separated : Separated rest) (isQuote : quote = '\'' ∨ quote = '"') :
    Closed quote rest := by
  intro same
  have plain := breaks_plain (separated quote same)
  rcases isQuote with rfl | rfl
  · exact plain.1 rfl
  · exact plain.2.1 rfl

private theorem lex_ident (name rest : Str) (closed : Closed '"' rest) :
    lex (enquote '"' name ++ rest) = (lex rest).map (.ident name :: ·) := by
  have text : enquote '"' name ++ rest = '"' :: (double '"' name ++ '"' :: rest) := by simp [enquote]
  rw [text, lex_cons (.ident name) rest (by decide)]
  simp [lexOne, readQuoted_double '"' name rest closed]

theorem lexes_ident (name : Str) : Lexes (enquote '"' name) [.ident name] :=
  fun rest separated => lex_ident name rest (separated.closed (.inr rfl))

/-- A qualifier and its point. -/
theorem opens_qualifier (name : Str) : Opens (enquote '"' name ++ ['.']) [.ident name, .punct '.'] := by
  intro rest
  have point := opens_punct (c := '.') (by decide) (by decide) (by decide) (by decide) (by decide) (by decide) rest
  rw [List.append_assoc, lex_ident name _ (by simp [Closed]), point, Option.map_map]
  rfl

theorem lexes_str (value : Str) : Lexes (enquote '\'' value) [.str value] := by
  intro rest separated
  have text : enquote '\'' value ++ rest = '\'' :: (double '\'' value ++ '\'' :: rest) := by simp [enquote]
  rw [text, lex_cons (.str value) rest (by decide)]
  · rfl
  · simp [lexOne, readQuoted_double '\'' value rest (separated.closed (.inl rfl))]

private theorem Separated.stops {rest : Str} (separated : Separated rest) {accept : Char → Bool}
    (rejects : ∀ c, breaks c → accept c = false) (text : Str) (accepted : ∀ c ∈ text, accept c) :
    (text ++ rest).takeWhile accept = text ∧ (text ++ rest).dropWhile accept = rest := by
  have stop : rest.takeWhile accept = [] ∧ rest.dropWhile accept = rest := by
    cases rest with
    | nil => exact ⟨rfl, rfl⟩
    | cons c rest =>
      have rejected := rejects c (separated c rfl)
      simp [rejected]
  rw [List.takeWhile_append_of_pos accepted, List.dropWhile_append_of_pos accepted, stop.1, stop.2]
  simp

/-- A word of the vocabulary, checked by evaluation. -/
def isWord : Str → Bool
  | [] => false
  | c :: rest =>
    isWordStart c && !isBlank c && !isOpChar c && !c.isDigit && c != '\'' && c != '"' && rest.all isWordChar

theorem lexes_word (name : Str) (word : isWord name) : Lexes name [.word name] := by
  cases name with
  | nil => cases word
  | cons c text =>
    simp only [isWord, Bool.and_eq_true, Bool.not_eq_true', bne_iff_ne, List.all_eq_true] at word
    obtain ⟨⟨⟨⟨⟨⟨start, blank⟩, operator⟩, digit⟩, quote⟩, double⟩, chars⟩ := word
    intro rest separated
    have stops := separated.stops (fun d break' => (breaks_plain break').2.2.2.2) text chars
    rw [List.cons_append, lex_cons (.word (c :: text)) rest blank]
    · rfl
    · simp [lexOne, quote, double, startsComment_other operator, operator, digit, start, stops.1, stops.2]

private theorem digit_plain {c : Char} (digit : c.isDigit) :
    isBlank c = false ∧ c ≠ '\'' ∧ c ≠ '"' ∧ isOpChar c = false := by
  refine ⟨?_, ?_, ?_, ?_⟩
  · by_contra blank
    simp only [isBlank, Bool.not_eq_false, Bool.or_eq_true, beq_iff_eq] at blank
    rcases blank with ((((rfl | rfl) | rfl) | rfl) | rfl) | rfl <;> exact absurd digit (by decide)
  · rintro rfl; exact absurd digit (by decide)
  · rintro rfl; exact absurd digit (by decide)
  · by_contra operator
    simp only [isOpChar, Bool.not_eq_false, List.contains_iff_mem] at operator
    have all : ∀ d ∈ "+-*/<>=~!@#%^&|?".toList, d.isDigit = false := every (by decide)
    simp [all c operator] at digit

/-- A digit, then digits and points. -/
def isNumeral : Str → Bool
  | [] => false
  | c :: rest => c.isDigit && rest.all fun d => d.isDigit || d == '.'

private theorem numChar_of {d : Char} (accepted : d.isDigit || d == '.') : isNumChar d := by
  simp only [Bool.or_eq_true, beq_iff_eq] at accepted
  rcases accepted with digit | rfl
  · simp [isNumChar, isWordChar, digit]
  · decide

theorem lexes_num {digits : Str} (numeral : isNumeral digits) : Lexes digits [.num digits] := by
  cases digits with
  | nil => cases numeral
  | cons c text =>
    simp only [isNumeral, Bool.and_eq_true, List.all_eq_true] at numeral
    obtain ⟨digit, chars⟩ := numeral
    obtain ⟨blank, quote, double, operator⟩ := digit_plain digit
    intro rest separated
    have stops := separated.stops (fun d break' => (breaks_plain break').2.2.2.1) text fun d member => numChar_of (chars d member)
    rw [List.cons_append, lex_cons (.num (c :: text)) rest blank]
    · rfl
    · simp [lexOne, quote, double, startsComment_other operator, operator, digit, stops.1, stops.2]

/-- A minus sign may be followed by a digit. -/
theorem lexes_minus {digits : Str} (numeral : isNumeral digits) : Lexes ('-' :: digits) [.op ['-'], .num digits] := by
  intro rest separated
  cases digits with
  | nil => cases numeral
  | cons c text =>
    have plain : c.isDigit := by
      simp only [isNumeral, Bool.and_eq_true] at numeral
      exact numeral.1
    have operator := (digit_plain plain).2.2.2
    have minus : c ≠ '-' := by rintro rfl; exact absurd plain (by decide)
    rw [List.cons_append, lex_cons (.op ['-']) (c :: text ++ rest) (by decide), lexes_num numeral rest separated,
      Option.map_map]
    · rfl
    · have run : operatorRun (c :: (text ++ rest)) = ([], c :: (text ++ rest)) := by simp [operatorRun, operator]
      have comment : startsComment ('-' :: c :: (text ++ rest)) = false := by
        simp only [startsComment]
        split <;> simp_all
      simp [lexOne, comment, run, show isOpChar '-' = true from by decide]

/-- Operator characters that start no comment. -/
def isOperator (symbol : Str) : Bool := symbol != [] && symbol.all fun c => isOpChar c && c != '-' && c != '/'

theorem startsComment_operator {c : Char} (minus : c ≠ '-') (slash : c ≠ '/') (rest : Str) :
    startsComment (c :: rest) = false := by
  unfold startsComment
  split
  next same => cases same; exact absurd rfl minus
  next same => cases same; exact absurd rfl slash
  next => rfl

private theorem operatorRun_append (symbol rest : Str) (chars : symbol.all fun c => isOpChar c && c != '-' && c != '/')
    (ends : ∀ c, rest.head? = some c → isOpChar c = false) : operatorRun (symbol ++ rest) = (symbol, rest) := by
  induction symbol with
  | nil =>
    cases rest with
    | nil => rfl
    | cons c rest => simp [operatorRun, ends c rfl]
  | cons c symbol ih =>
    simp only [List.all_cons, Bool.and_eq_true, bne_iff_ne] at chars
    obtain ⟨⟨⟨operator, minus⟩, slash⟩, others⟩ := chars
    have found := ih (by simpa using others)
    simp [operatorRun, operator, startsComment_operator minus slash, found]

theorem lex_operator {symbol : Str} (operator : isOperator symbol) (rest : Str)
    (ends : ∀ c, rest.head? = some c → isOpChar c = false) : lex (symbol ++ rest) = (lex rest).map (.op symbol :: ·) := by
  cases symbol with
  | nil => cases operator
  | cons c symbol =>
    simp only [isOperator, List.all_cons, Bool.and_eq_true, bne_iff_ne] at operator
    obtain ⟨-, ⟨⟨first, minus⟩, slash⟩, others⟩ := operator
    have run := operatorRun_append symbol rest (by simpa using others) ends
    have solid : isBlank c = false ∧ c ≠ '\'' ∧ c ≠ '"' := by
      have all : ∀ d ∈ "+-*/<>=~!@#%^&|?".toList, isBlank d = false ∧ d ≠ '\'' ∧ d ≠ '"' := every (by decide)
      exact all c (List.contains_iff_mem.mp first)
    rw [List.cons_append, lex_cons (.op (c :: symbol)) rest solid.1]
    simp [lexOne, solid.2.1, solid.2.2, startsComment_operator minus slash, first, run]

theorem lexes_operator (symbol : Str) (operator : isOperator symbol) : Lexes symbol [.op symbol] := by
  intro rest separated
  rw [lex_operator operator rest fun c same => (breaks_plain (separated c same)).2.2.1]
  rfl

/-- A name, an operator and a text with nothing between them. -/
theorem lexes_infix (name symbol : Str) {text tail : Str} {c : Char} {tokens : List Token} (operator : isOperator symbol)
    (lexes : Lexes text tokens) (starts : text = c :: tail) (other : isOpChar c = false) :
    Lexes (enquote '"' name ++ (symbol ++ text)) (.ident name :: .op symbol :: tokens) := by
  intro rest separated
  have closed : Closed '"' (symbol ++ (text ++ rest)) := by
    cases symbol with
    | nil => cases operator
    | cons d symbol =>
      intro same
      cases same
      exact absurd operator (by simp [isOperator, isOpChar])
  have ends : ∀ d, (text ++ rest).head? = some d → isOpChar d = false := by
    intro d same
    rw [starts] at same
    cases same
    exact other
  rw [List.append_assoc, List.append_assoc, lex_ident name _ closed, lex_operator operator _ ends, lexes rest separated,
    Option.map_map, Option.map_map]
  rfl

theorem opens_space : Opens [' '] [] := opens_blank (by decide)

theorem opens_lparen : Opens ['('] [.punct '('] :=
  opens_punct (by decide) (by decide) (by decide) (by decide) (by decide) (by decide)

theorem opens_rparen : Opens [')'] [.punct ')'] :=
  opens_punct (by decide) (by decide) (by decide) (by decide) (by decide) (by decide)

theorem opens_comma : Opens [','] [.punct ','] :=
  opens_punct (by decide) (by decide) (by decide) (by decide) (by decide) (by decide)

theorem breaks_space : breaks ' ' := .inl (by decide)
theorem breaks_lparen : breaks '(' := .inr (.inl rfl)
theorem breaks_rparen : breaks ')' := .inr (.inr (.inl rfl))
theorem breaks_comma : breaks ',' := .inr (.inr (.inr rfl))

/-- A text and a blank after it. -/
theorem Lexes.space {text : Str} {tokens : List Token} (lexes : Lexes text tokens) : Opens (text ++ [' ']) tokens := by
  simpa using lexes.opens opens_space rfl breaks_space

/-- Two texts with a blank between them. -/
theorem Lexes.spaced {first last : Str} {before after : List Token} (lexes : Lexes first before) (more : Lexes last after) :
    Lexes (first ++ ' ' :: last) (before ++ after) := by
  simpa using lexes.space.then more

theorem Lexes.parens {text : Str} {tokens : List Token} (lexes : Lexes text tokens) :
    Opens ('(' :: (text ++ [')'])) (.punct '(' :: (tokens ++ [.punct ')'])) := by
  simpa using opens_lparen.append (lexes.opens opens_rparen rfl breaks_rparen)

/-- Items with a separator that starts with a break between them. -/
theorem lexes_intercalate {separator tail : Str} {between : List Token} {c : Char} (opens : Opens separator between)
    (starts : separator = c :: tail) (break' : breaks c) (items : List α) (text : α → Str) (tokens : α → List Token)
    (lexes : ∀ item ∈ items, Lexes (text item) (tokens item)) :
    Lexes (separator.intercalate (items.map text)) (between.intercalate (items.map tokens)) := by
  induction items with
  | nil => exact opens_nil.lexes
  | cons item others ih =>
    have first := lexes item (by simp)
    cases others with
    | nil => simpa using first
    | cons next others =>
      have rest := ih fun other member => lexes other (List.mem_cons_of_mem _ member)
      have step := (first.opens opens starts break').then rest
      simpa using step

/-- An optional end of a statement: nothing, or a blank and a text. -/
def Clause (text : Str) (tokens : List Token) : Prop := (text = [] ∨ ∃ tail, text = ' ' :: tail) ∧ Lexes text tokens

theorem Clause.none : Clause [] [] := ⟨.inl rfl, opens_nil.lexes⟩

theorem Lexes.clause {text : Str} {tokens : List Token} (lexes : Lexes text tokens) : Clause (' ' :: text) tokens :=
  ⟨.inr ⟨text, rfl⟩, opens_space.then lexes⟩

/-- A text and the clause after it. -/
theorem Lexes.followed {first last : Str} {before after : List Token} (lexes : Lexes first before) (clause : Clause last after) :
    Lexes (first ++ last) (before ++ after) := by
  obtain ⟨rfl | ⟨tail, starts⟩, more⟩ := clause
  · have none : after = [] := by simpa using more.lex.symm
    simpa [none] using lexes
  · exact lexes.then more starts breaks_space

theorem Clause.append {first last : Str} {before after : List Token} (clause : Clause first before) (more : Clause last after) :
    Clause (first ++ last) (before ++ after) := by
  refine ⟨?_, clause.2.followed more⟩
  obtain ⟨rfl | ⟨tail, rfl⟩, -⟩ := clause
  · simpa using more.1
  · exact .inr ⟨tail ++ last, rfl⟩

end Sql
