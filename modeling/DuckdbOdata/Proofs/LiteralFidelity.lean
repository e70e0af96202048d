import DuckdbOdata.Proofs.FilterErrors
import DuckdbOdata.Proofs.FilterPrinting
import DuckdbOdata.Proofs.Numerals
import DuckdbOdata.Proofs.SqlTokens

/-! Literals from the text of a filter to the text of the condition. Integers and
strings keep their value. A floating literal keeps its number when six decimal
places are enough to name it and the whole lexeme is a numeral. -/

namespace DuckdbOdata.LiteralFidelity
open Text Binary64 FilterGrammar FilterParser Lexemes Numerals SqlTokens

/-- What a literal denotes. -/
inductive Constant
  | integer (value : Int)
  | double (value : Double)
  | string (value : Str)

/-- The whole text is a literal of the filter language. -/
inductive Denotes : Str → Constant → Prop
  | integer {text value} : IntegerText text value → Denotes text (.integer value)
  | double {text value} : DoubleText text value → Denotes text (.double value)
  | string {quote : Char} (value : Str) : isQuote quote → Denotes (enquote quote value) (.string value)

/-- The whole text is a literal of SQL, or one that is cast. A decimal denotes
the number nearest to it. -/
inductive SqlDenotes : Str → Constant → Prop
  | integer {text negative digits} : Sql.lex text = some (numberTokens negative digits) → digits ≠ [] → Digits digits →
      SqlDenotes text (.integer (signed negative (Nat.ofDigitChars 10 digits 0)))
  | decimal {text negative whole fraction value} : Sql.lex text = some (numberTokens negative (whole ++ '.' :: fraction)) →
      whole ≠ [] → Digits whole → Digits fraction →
      ofRatio negative (Nat.ofDigitChars 10 (whole ++ fraction) 0) (10 ^ fraction.length) = some value →
      SqlDenotes text (.double value)
  | string {text value} : Sql.lex text = some [.str value] → SqlDenotes text (.string value)
  | cast {text value} (type : Str) : SqlDenotes text (.string value) →
      SqlDenotes ("CAST(".toList ++ text ++ " AS ".toList ++ type ++ ")".toList) (.string value)

/-- The lexeme and the literal compiled from it denote one constant. -/
def Faithful (lexeme target : Str) (value : LiteralExpr) : Prop :=
  ∃ constant, Denotes lexeme constant ∧ SqlDenotes (compileLiteral target value) constant

/-- The lexeme of a floating literal is a numeral, and its number is the nearest
one to some decimal with six places. -/
def SixPlaces (lexeme : Str) : Prop :=
  ∃ value millionths, DoubleText lexeme value ∧ ofRatio value.negative millionths (10 ^ 6) = some value

def Exact (lexeme : Str) : LiteralExpr → Prop
  | .float _ => SixPlaces lexeme
  | _ => True

/-- Literals that carry a value of the client's. -/
def Valued : LiteralExpr → Prop
  | .integer _ | .float _ | .string _ => True
  | _ => False

/-- The tokenizer's lexemes in order, each with its token. -/
inductive Lexed : Str → List (Str × Token) → Prop
  | done : Lexed [] []
  | blank {c rest pieces} : blank c → Lexed rest pieces → Lexed (c :: rest) pieces
  | lexeme {c rest lexeme after token line pieces} : ¬ blank c → nextToken line c rest = .ok (token, after) →
      lexeme ++ after = c :: rest → Lexed after pieces → Lexed (c :: rest) ((lexeme, token) :: pieces)

private theorem nextToken_suffix {line : Nat} {c : Char} {rest after : Str} {token : Token} (lexeme : ¬ blank c)
    (next : nextToken line c rest = .ok (token, after)) :
    token.type ≠ .end ∧ ∃ text, text ++ after = c :: rest := by
  have cases := nextToken_cases line c rest lexeme
  rw [next] at cases
  cases cases with
  | token skipped typed _ =>
    refine ⟨typed.inner, ?_⟩
    by_cases quoted : isQuote c
    · obtain ⟨value, rfl, -⟩ := skipLexeme_quoted skipped quoted
      exact ⟨c :: (double c value ++ [c]), by simp⟩
    · obtain ⟨body, rfl, -⟩ := skipLexeme_plain skipped quoted
      exact ⟨c :: body, rfl⟩

/-- Pieces of a text and the token that ends it. -/
private def LexedTo (text : Str) (tokens : List Token) : Prop :=
  ∃ pieces last, Lexed text pieces ∧ tokens = pieces.map (·.2) ++ [last] ∧ last.type = .end ∧
    ∀ piece ∈ pieces, piece.2.type ≠ .end

private theorem lexedTo_nil : LexedTo [] [{ type := .end }] :=
  ⟨[], _, .done, (List.nil_append _).symm, rfl, fun _ member => absurd member List.not_mem_nil⟩

private theorem tokenizeFrom_lexed {fuel line : Nat} {text : Str} {tokens : List Token}
    (done : tokenizeFrom fuel line text = .ok tokens) : LexedTo text tokens := by
  induction fuel generalizing line text tokens with
  | zero =>
    cases text with
    | nil => cases done; exact lexedTo_nil
    | cons c rest => cases done
  | succ fuel ih =>
    cases text with
    | nil => cases done; exact lexedTo_nil
    | cons c rest =>
      by_cases space : blank c
      · obtain ⟨next, skipped⟩ := tokenizeFrom_blank fuel line space rest
        obtain ⟨pieces, last, lexed, others⟩ := ih (skipped ▸ done)
        exact ⟨pieces, last, .blank space lexed, others⟩
      · rw [tokenizeFrom_lexeme fuel line space rest] at done
        obtain ⟨⟨token, after⟩, next, more⟩ := bind_ok done
        obtain ⟨tokens, others, same⟩ := bind_ok more
        cases same
        obtain ⟨pieces, last, lexed, rfl, ended, inner⟩ := ih others
        obtain ⟨open', text, split⟩ := nextToken_suffix space next
        refine ⟨(text, token) :: pieces, last, .lexeme space next split lexed, rfl, ended, ?_⟩
        intro piece member
        rcases List.mem_cons.mp member with rfl | later
        · exact open'
        · exact inner piece later

private theorem Lexed.mem {text lexeme : Str} {token : Token} {pieces : List (Str × Token)} (lexed : Lexed text pieces)
    (member : (lexeme, token) ∈ pieces) :
    ∃ line c rest after, nextToken line c rest = .ok (token, after) ∧ lexeme ++ after = c :: rest := by
  induction lexed with
  | done => cases member
  | blank _ _ ih => exact ih member
  | lexeme _ next split _ ih =>
    rcases List.mem_cons.mp member with same | later
    · cases same
      exact ⟨_, _, _, _, next, split⟩
    · exact ih later

mutual
/-- The literals of an expression from left to right. -/
def literals : Expr → List LiteralExpr
  | .property _ => []
  | .literal value => [value]
  | .binary _ left right => literals left ++ literals right
  | .unary _ child => literals child
  | .functionCall _ args => argLiterals args

def argLiterals : List Expr → List LiteralExpr
  | [] => []
  | arg :: others => literals arg ++ argLiterals others
end

private theorem literalOf_none {token : Token} {type : TokenType} (typed : token.type = type)
    (other : type ∉ [TokenType.integer, .float, .string, .boolean, .nullVal]) : literalOf token = none := by
  unfold literalOf
  rw [typed]
  cases type <;> first | rfl | exact absurd (by decide) other

private theorem literalOf_comparison {token : Token} {op : BinaryOp} (compared : comparisonOp token.type = some op) :
    literalOf token = none := by
  unfold comparisonOp at compared
  split at compared
  all_goals first | (next typed => exact literalOf_none typed (by decide)) | cases compared

mutual
theorem or_literals {tokens : List Token} {expr : Expr} : OrExpr tokens expr → tokens.filterMap literalOf = literals expr
  | .single derived => and_literals derived
  | .more first typed last => by
    rw [List.filterMap_append, List.filterMap_cons_none (literalOf_none typed (by decide)), or_literals first,
      and_literals last, literals]

theorem and_literals {tokens : List Token} {expr : Expr} : AndExpr tokens expr →
    tokens.filterMap literalOf = literals expr
  | .single derived => not_literals derived
  | .more first typed last => by
    rw [List.filterMap_append, List.filterMap_cons_none (literalOf_none typed (by decide)), and_literals first,
      not_literals last, literals]

theorem not_literals {tokens : List Token} {expr : Expr} : NotExpr tokens expr →
    tokens.filterMap literalOf = literals expr
  | .not typed derived => by
    rw [List.filterMap_cons_none (literalOf_none typed (by decide)), not_literals derived, literals]
  | .comparison derived => comparison_literals derived

theorem comparison_literals {tokens : List Token} {expr : Expr} : Comparison tokens expr →
    tokens.filterMap literalOf = literals expr
  | .bare derived => primary_literals derived
  | .compare first compared last => by
    rw [List.filterMap_append, List.filterMap_cons_none (literalOf_comparison compared), primary_literals first,
      primary_literals last, literals]

theorem primary_literals {tokens : List Token} {expr : Expr} : Primary tokens expr →
    tokens.filterMap literalOf = literals expr
  | .literal found => by simp [found, literals]
  | .property typed => by simp [literalOf_none typed, literals]
  | .callEmpty typed opened closed => by
    simp [literalOf_none typed, literalOf_none opened, literalOf_none closed, literals, argLiterals]
  | .call typed opened derived closed => by
    simp [literalOf_none typed, literalOf_none opened, literalOf_none closed, args_literals derived, literals]
  | .group opened derived closed => by simp [literalOf_none opened, literalOf_none closed, or_literals derived]

theorem args_literals {tokens : List Token} {args : List Expr} : Args tokens args →
    tokens.filterMap literalOf = argLiterals args
  | .last derived => by simp [or_literals derived, argLiterals]
  | .more first typed others => by
    rw [List.filterMap_append, List.filterMap_cons_none (literalOf_none typed (by decide)), or_literals first,
      args_literals others, argLiterals]
end

/-- How a lexeme became a literal. -/
inductive ReadAs : Str → LiteralExpr → Prop
  | integer {lexeme value} : IntegerText lexeme value → ReadAs lexeme (.integer value)
  | float {lexeme value} : stod lexeme = .ok value → ReadAs lexeme (.float value)
  | string {quote : Char} (value : Str) : isQuote quote → ReadAs (enquote quote value) (.string value)

private theorem literalOf_valued {token : Token} {value : LiteralExpr} (found : literalOf token = some value)
    (valued : Valued value) : token.type = .integer ∨ token.type = .float ∨ token.type = .string := by
  unfold literalOf at found
  split at found
  next typed => exact .inl typed
  next typed => exact .inr (.inl typed)
  next typed => exact .inr (.inr typed)
  next => cases found; exact valued.elim
  next => cases found; exact valued.elim
  next => cases found

private theorem wordToken_literal {line : Nat} {text : Str} {value : LiteralExpr}
    (found : literalOf (wordToken line text) = some value) : ¬ Valued value := by
  intro valued
  have word := wordToken_type line text
  rcases literalOf_valued found valued with typed | typed | typed <;> (rw [typed] at word; exact absurd word (by decide))

theorem nextToken_literal {line : Nat} {c : Char} {rest lexeme after : Str} {token : Token} {value : LiteralExpr}
    (next : nextToken line c rest = .ok (token, after)) (split' : lexeme ++ after = c :: rest)
    (found : literalOf token = some value) (valued : Valued value) : ReadAs lexeme value := by
  unfold nextToken at next
  split at next
  next quoted =>
    split at next
    next => cases next
    next text tail read =>
      cases next
      cases found
      obtain ⟨rfl, -⟩ := readQuoted_split c rest read
      have same : lexeme = enquote c text := by
        have whole : lexeme ++ after = enquote c text ++ after := by
          rw [split']
          simp [enquote]
        exact List.append_cancel_right whole
      rw [same]
      exact .string text quoted
  split at next
  next starts =>
    have whole := scanNumber_append (c :: rest)
    generalize scanned : scanNumber (c :: rest) = number at next whole
    obtain ⟨text, isFloat, tail⟩ := number
    simp only at next whole
    split at next
    next float =>
      obtain ⟨converted, done, same⟩ := bind_ok next
      cases same
      cases found
      rw [List.append_cancel_right (split'.trans whole.symm)]
      exact .float done
    next whole' =>
      obtain ⟨⟨converted, used⟩, done, same⟩ := bind_ok next
      cases same
      cases found
      rw [List.append_cancel_right (split'.trans whole.symm)]
      obtain ⟨negative, digits, rfl, present, all⟩ := scanNumber_integer starts (by simpa [whole'] using scanned)
      rw [stoll_integer present all done]
      exact .integer (.digits negative present all)
  split at next
  next =>
    cases next
    exact absurd valued (wordToken_literal found)
  split at next
  next type mark =>
    cases next
    have other : literalOf { type, text := [c], line } = none := by
      unfold punctuation at mark
      repeat' split at mark
      all_goals cases mark
      all_goals rfl
    cases found.symm.trans other
  next => cases next

private theorem intText_denotes (value : Int) : SqlDenotes (intText value) (.integer value) := by
  have digits : Digits (Nat.toDigits 10 value.natAbs) := fun c member =>
    Nat.isDigit_of_mem_toDigits (by decide) (by decide) member
  have denotes := SqlDenotes.integer (lexes_int value).lex Nat.toDigits_ne_nil digits
  rwa [signed_toDigits] at denotes

private theorem string_denotes (target value : Str) : SqlDenotes (compileLiteral target (.string value)) (.string value) := by
  have literal : SqlDenotes (quoteStringLiteral value) (.string value) := .string (Sql.lexes_str value).lex
  by_cases plain : plainTarget target
  · have text : compileLiteral target (.string value) = quoteStringLiteral value := if_pos plain
    rw [text]
    exact literal
  · have text : compileLiteral target (.string value) =
        "CAST(".toList ++ quoteStringLiteral value ++ " AS ".toList ++ target ++ ")".toList := if_neg plain
    rw [text]
    exact .cast target literal

private theorem fixed_denotes {value : Double} {millionths : Nat}
    (rounds : ofRatio value.negative millionths (10 ^ 6) = some value) : SqlDenotes value.fixed (.double value) := by
  have digits : Digits (Nat.toDigits 10 (roundHalfEven (value.units * 10 ^ 6) unit / 10 ^ 6)) := fun c member =>
    Nat.isDigit_of_mem_toDigits (by decide) (by decide) member
  have places : Digits (padded 6 (roundHalfEven (value.units * 10 ^ 6) unit % 10 ^ 6)) := fun c member => padded_digits member
  refine .decimal (lexes_float value).lex Nat.toDigits_ne_nil digits places ?_
  rw [decimalText_value, padded_length (by decide) (Nat.mod_lt _ (by decide))]
  exact ofRatio_places rounds

private theorem numberTokens_inj {negative other : Bool} {digits text : Str}
    (same : numberTokens negative digits = numberTokens other text) : negative = other ∧ digits = text := by
  cases negative <;> cases other <;> simp_all [numberTokens]

private theorem point_inj {whole other fraction places : Str} (all : Digits whole) (digits : Digits other)
    (same : whole ++ '.' :: fraction = other ++ '.' :: places) : whole = other ∧ fraction = places := by
  have stops : ∀ rest, Stops ('.' :: rest) := fun rest c first => by cases first; rfl
  have taken := (digits_split all (stops fraction)).1
  rw [same, (digits_split digits (stops places)).1] at taken
  subst taken
  exact ⟨rfl, (List.cons.inj (List.append_cancel_left same)).2⟩

private theorem SqlDenotes.decimal_inv {text : Str} {number : Double} (denotes : SqlDenotes text (.double number)) :
    ∃ negative whole fraction, Sql.lex text = some (numberTokens negative (whole ++ '.' :: fraction)) ∧ Digits whole ∧
      ofRatio negative (Nat.ofDigitChars 10 (whole ++ fraction) 0) (10 ^ fraction.length) = some number := by
  cases denotes with
  | decimal lexed _ whole _ rounds => exact ⟨_, _, _, lexed, whole, rounds⟩

private theorem SqlDenotes.integer_inv {text : Str} {number : Int} (denotes : SqlDenotes text (.integer number)) :
    ∃ negative digits, Sql.lex text = some (numberTokens negative digits) ∧ Digits digits := by
  cases denotes with
  | integer lexed _ all => exact ⟨_, _, lexed, all⟩

private theorem fixed_rounds {value number : Double} (denotes : SqlDenotes value.fixed (.double number)) :
    ∃ millionths, ofRatio number.negative millionths (10 ^ 6) = some number := by
  have digits : Digits (Nat.toDigits 10 (roundHalfEven (value.units * 10 ^ 6) unit / 10 ^ 6)) := fun c member =>
    Nat.isDigit_of_mem_toDigits (by decide) (by decide) member
  obtain ⟨negative, whole, fraction, lexed, all, rounds⟩ := denotes.decimal_inv
  obtain ⟨rfl, text⟩ := numberTokens_inj (Option.some.inj (lexed.symm.trans (lexes_float value).lex))
  obtain ⟨rfl, rfl⟩ := point_inj all digits text
  rw [padded_length (by decide) (Nat.mod_lt _ (by decide))] at rounds
  rw [← (ofRatio_some.mp rounds).1] at rounds
  exact ⟨_, rounds⟩

private theorem fixed_no_integer {value : Double} {number : Int} : ¬ SqlDenotes value.fixed (.integer number) := by
  intro denotes
  obtain ⟨negative, digits, lexed, all⟩ := denotes.integer_inv
  obtain ⟨-, rfl⟩ := numberTokens_inj (Option.some.inj (lexed.symm.trans (lexes_float value).lex))
  have point : Char.isDigit '.' = true := all '.' (by simp [Double.unsigned, decimalText])
  exact absurd point (by decide)

private theorem stod_quoted {quote : Char} (quoted : isQuote quote) (rest : Str) (value : Double) :
    stod (quote :: rest) ≠ .ok value := by
  have none : (readDecimal (quote :: rest)).digits = [] := by rcases quoted with rfl | rfl <;> rfl
  rw [stod, if_pos none]
  intro same
  cases same

private theorem float_faithful {lexeme target : Str} {value : Double} (read : stod lexeme = .ok value) :
    Faithful lexeme target (.float value) ↔ SixPlaces lexeme := by
  constructor
  · rintro ⟨constant, denotes, printed⟩
    cases denotes with
    | double text =>
      obtain ⟨millionths, rounds⟩ := fixed_rounds printed
      exact ⟨_, millionths, text, rounds⟩
    | integer text => exact absurd printed fixed_no_integer
    | string text quoted => exact absurd read (stod_quoted quoted _ _)
  · rintro ⟨number, millionths, text, rounds⟩
    cases text.stod read
    exact ⟨.double value, .double text, fixed_denotes rounds⟩

theorem ReadAs.faithful {lexeme : Str} {value : LiteralExpr} (read : ReadAs lexeme value) (target : Str) :
    Faithful lexeme target value ↔ Exact lexeme value := by
  cases read with
  | integer text => exact ⟨fun _ => trivial, fun _ => ⟨_, .integer text, intText_denotes _⟩⟩
  | float done => exact float_faithful done
  | string value quoted => exact ⟨fun _ => trivial, fun _ => ⟨_, .string value quoted, string_denotes target value⟩⟩

/-- The literals of an accepted filter are those of its lexemes. One with a value
of the client's is compiled to SQL of the same value exactly when it is no
floating literal or six decimal places name its number. -/
theorem literals_faithful {filter : Str} {expr : Expr} (accepted : parseFilter filter = .ok expr) :
    ∃ pieces, Lexed filter pieces ∧ literals expr = pieces.filterMap (fun piece => literalOf piece.2) ∧
      ∀ piece ∈ pieces, ∀ value, literalOf piece.2 = some value → Valued value →
        ∀ target, Faithful piece.1 target value ↔ Exact piece.1 value := by
  obtain ⟨tokens, lexed, parsed⟩ := bind_ok accepted
  obtain ⟨pieces, last, cut, rfl, ended, inner⟩ := tokenizeFrom_lexed lexed
  refine ⟨pieces, cut, ?_, ?_⟩
  · rw [← or_literals (parse_sound ?_ ended parsed), List.filterMap_map]
    · rfl
    · intro token member
      obtain ⟨piece, listed, rfl⟩ := List.mem_map.mp member
      exact inner piece listed
  · rintro ⟨lexeme, token⟩ member value found valued target
    obtain ⟨line, c, rest, after, next, split⟩ := cut.mem member
    exact (nextToken_literal next split found valued).faithful target

private theorem tokenize_one : tokenize "a eq 1".toList =
    .ok [{ type := .identifier, text := "a".toList }, { type := .eq, text := "eq".toList },
      { type := .integer, text := "1".toList, intValue := 1 }, { type := .end }] := by
  decide +kernel

private theorem parseFilter_one :
    parseFilter "a eq 1".toList = .ok (.binary .eq (.property "a".toList) (.literal (.integer 1))) := by
  rw [parseFilter, tokenize_one]
  rfl

theorem literals_faithful_one :
    ∃ pieces, Lexed "a eq 1".toList pieces ∧
      literals (.binary .eq (.property "a".toList) (.literal (.integer 1))) =
        pieces.filterMap (fun piece => literalOf piece.2) ∧
      ∀ piece ∈ pieces, ∀ value, literalOf piece.2 = some value → Valued value →
        ∀ target, Faithful piece.1 target value ↔ Exact piece.1 value :=
  literals_faithful parseFilter_one

/-- The number nearest to one ten-millionth. -/
private def tiny : Double := ⟨false, 7555786372591432, 998, by decide⟩

private theorem stod_tiny : stod "0.0000001".toList = .ok tiny := by decide +kernel

private theorem tokenize_tiny : tokenize "a lt 0.0000001".toList =
    .ok [{ type := .identifier, text := "a".toList }, { type := .lt, text := "lt".toList },
      { type := .float, text := "0.0000001".toList, floatValue := tiny }, { type := .end }] := by
  decide +kernel

private theorem sixPlaces_tiny : ¬ SixPlaces "0.0000001".toList := by
  rintro ⟨value, millionths, text, rounds⟩
  cases text.stod stod_tiny
  exact absurd (ofRatio_places rounds) (by decide +kernel)

private theorem parseFilter_tiny :
    parseFilter "a lt 0.0000001".toList = .ok (.binary .lt (.property "a".toList) (.literal (.float tiny))) := by
  rw [parseFilter, tokenize_tiny]
  generalize tiny = value
  rfl

private theorem compileLiteral_tiny : compileLiteral [] (.float tiny) = "0.000000".toList := by decide +kernel

/-- The number is printed as zero, so another constant is compared with. -/
theorem literals_faithful_tiny :
    ∃ value, parseFilter "a lt 0.0000001".toList = .ok (.binary .lt (.property "a".toList) (.literal (.float value))) ∧
      compileLiteral [] (.float value) = "0.000000".toList ∧ ¬ Faithful "0.0000001".toList [] (.float value) :=
  ⟨tiny, parseFilter_tiny, compileLiteral_tiny, fun faithful => sixPlaces_tiny ((float_faithful stod_tiny).mp faithful)⟩

end DuckdbOdata.LiteralFidelity
