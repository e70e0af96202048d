import DuckdbOdata.Common.StdLib

/-! The tokenizer of `$filter` expressions (`parser/lexer.cpp`). -/

namespace DuckdbOdata
open Text Binary64

inductive TokenType
  | identifier | string | integer | float | date | timestamp | guid | boolean | nullVal
  | eq | ne | gt | ge | lt | le | and | or | not
  | lparen | rparen | comma | colon
  | «end»
deriving DecidableEq, Repr

structure Token where
  type : TokenType
  text : Str := []
  intValue : Int := 0
  floatValue : Double := .zero
  line : Nat := 1
deriving DecidableEq

def keywordType (lower : Str) : TokenType :=
  if lower = "eq".toList then .eq
  else if lower = "ne".toList then .ne
  else if lower = "gt".toList then .gt
  else if lower = "ge".toList then .ge
  else if lower = "lt".toList then .lt
  else if lower = "le".toList then .le
  else if lower = "and".toList then .and
  else if lower = "or".toList then .or
  else if lower = "not".toList then .not
  else if lower = "true".toList ∨ lower = "false".toList then .boolean
  else if lower = "null".toList then .nullVal
  else .identifier

def isIdentStart (c : Char) : Bool := c.isAlpha || c == '_'

def isIdentChar (c : Char) : Bool := c.isAlphanum || c == '_' || c == '.' || c == '/'

/-- An optional character, when it satisfies `accept`. -/
def takeOne (accept : Char → Bool) : Str → Str × Str
  | [] => ([], [])
  | c :: rest => if accept c then ([c], rest) else ([], c :: rest)

/-- The text of a number literal, whether it is a float, and the rest. -/
def scanNumber (input : Str) : Str × Bool × Str :=
  let (sign, body) := takeOne (· == '-') input
  let whole := takeDigits body
  let (dot, afterDot) := takeOne (· == '.') (dropDigits body)
  let fraction := if dot = [] then [] else takeDigits afterDot
  let (marker, afterMarker) := takeOne (fun c => c == 'e' || c == 'E') (if dot = [] then afterDot else dropDigits afterDot)
  let (exponentSign, afterSign) := if marker = [] then ([], afterMarker) else takeOne (fun c => c == '+' || c == '-') afterMarker
  let exponent := if marker = [] then [] else takeDigits afterSign
  (sign ++ whole ++ dot ++ fraction ++ marker ++ exponentSign ++ exponent,
    dot ≠ [] || marker ≠ [],
    if marker = [] then afterSign else dropDigits afterSign)

/-- `std::isdigit(c) || (c == '-' && std::isdigit(next))` -/
def startsNumber (c : Char) (rest : Str) : Bool :=
  c.isDigit || (c == '-' && rest.head?.any Char.isDigit)

def punctuation (c : Char) : Option TokenType :=
  if c = '(' then some .lparen
  else if c = ')' then some .rparen
  else if c = ',' then some .comma
  else if c = ':' then some .colon
  else none

/-- An identifier or a keyword; `null` and the operators are lower-cased. -/
def wordToken (line : Nat) (text : Str) : Token :=
  match keywordType (toLower text) with
  | .boolean => { type := .boolean, text, line }
  | .nullVal => { type := .nullVal, text := "null".toList, line }
  | .identifier => { type := .identifier, text, line }
  | keyword => { type := keyword, text := toLower text, line }

/-- One token from a text that starts with the non-blank `c`. -/
def nextToken (line : Nat) (c : Char) (rest : Str) : Except Exn (Token × Str) :=
  if c = '\'' ∨ c = '"' then
    match readQuoted c rest with
    | none => .error (.odataParse "Unterminated string literal in $filter".toList)
    | some (value, after) => .ok ({ type := .string, text := value, line }, after)
  else if startsNumber c rest then
    let (text, isFloat, after) := scanNumber (c :: rest)
    if isFloat then do
      let value ← stod text
      .ok ({ type := .float, text, floatValue := value, line }, after)
    else do
      let (value, _) ← stoll text
      .ok ({ type := .integer, text, intValue := value, line }, after)
  else if isIdentStart c then
    .ok (wordToken line ((c :: rest).takeWhile isIdentChar), (c :: rest).dropWhile isIdentChar)
  else match punctuation c with
    | some type => .ok ({ type, text := [c], line }, rest)
    | none => .error (.odataParse ("Unexpected character '".toList ++ c :: "' in $filter".toList))

/-- The loop of `Tokenize`. Every round consumes a character, so the length of
the input is enough fuel. -/
def tokenizeFrom : Nat → Nat → Str → Except Exn (List Token)
  | _, _, [] => .ok [{ type := .end }]
  | 0, _, _ :: _ => .error .undefined
  | fuel + 1, line, c :: rest =>
    if c = ' ' ∨ c = '\t' ∨ c = '\r' then tokenizeFrom fuel line rest
    else if c = '\n' then tokenizeFrom fuel (line + 1) rest
    else do
      let (token, after) ← nextToken line c rest
      let tokens ← tokenizeFrom fuel line after
      .ok (token :: tokens)

def tokenize (input : Str) : Except Exn (List Token) := tokenizeFrom input.length 1 input

end DuckdbOdata
