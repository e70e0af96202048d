import DuckdbOdata.Parser.Ast
import DuckdbOdata.Parser.Lexer

/-! The recursive-descent parser of `$filter` and the parsers of the other query
options (`parser/odata_parser.cpp`). The parser's position is the list of tokens
still to read; reading past the last token is `Exn.undefined`. -/

namespace DuckdbOdata
open Text Binary64

namespace FilterParser

/-- `Match`: the tokens after the next one if that has the wanted type. -/
def accept (type : TokenType) : List Token → Except Exn (Option (List Token))
  | [] => .error .undefined
  | token :: rest => .ok (if token.type = type then some rest else none)

def expect (type : TokenType) (what : Str) : List Token → Except Exn (List Token)
  | [] => .error .undefined
  | token :: rest =>
    if token.type = type then .ok rest
    else .error (.odataParse ("expected ".toList ++ what ++ " but found '".toList ++ token.text ++ "'".toList))

def comparisonOp : TokenType → Option BinaryOp
  | .eq => some .eq
  | .ne => some .ne
  | .gt => some .gt
  | .ge => some .ge
  | .lt => some .lt
  | .le => some .le
  | _ => none

/-- The literal of a token that is one by itself. -/
def literalOf (token : Token) : Option LiteralExpr :=
  match token.type with
  | .integer => some (.integer token.intValue)
  | .float => some (.float token.floatValue)
  | .string => some (.string token.text)
  | .boolean => some (.boolean (toLower token.text = "true".toList))
  | .nullVal => some .null
  | _ => none

def unexpected (token : Token) : Exn :=
  .odataParse ("unexpected token '".toList ++ token.text ++ "' in $filter".toList)

mutual
def parseOr : Nat → List Token → Except Exn (Expr × List Token)
  | 0, _ => .error .undefined
  | fuel + 1, tokens => do
    let (left, rest) ← parseAnd fuel tokens
    orLoop fuel left rest

/-- `while (Match(OR))` with the expression built so far. -/
def orLoop : Nat → Expr → List Token → Except Exn (Expr × List Token)
  | 0, _, _ => .error .undefined
  | fuel + 1, left, tokens => do
    match ← accept .or tokens with
    | none => .ok (left, tokens)
    | some rest =>
      let (right, rest) ← parseAnd fuel rest
      orLoop fuel (.binary .or left right) rest

def parseAnd : Nat → List Token → Except Exn (Expr × List Token)
  | 0, _ => .error .undefined
  | fuel + 1, tokens => do
    let (left, rest) ← parseNot fuel tokens
    andLoop fuel left rest

/-- `while (Match(AND))` with the expression built so far. -/
def andLoop : Nat → Expr → List Token → Except Exn (Expr × List Token)
  | 0, _, _ => .error .undefined
  | fuel + 1, left, tokens => do
    match ← accept .and tokens with
    | none => .ok (left, tokens)
    | some rest =>
      let (right, rest) ← parseNot fuel rest
      andLoop fuel (.binary .and left right) rest

def parseNot : Nat → List Token → Except Exn (Expr × List Token)
  | 0, _ => .error .undefined
  | fuel + 1, tokens => do
    match ← accept .not tokens with
    | some rest =>
      let (child, rest) ← parseNot fuel rest
      .ok (.unary .not child, rest)
    | none => parseComparison fuel tokens

def parseComparison : Nat → List Token → Except Exn (Expr × List Token)
  | 0, _ => .error .undefined
  | fuel + 1, tokens => do
    let (left, rest) ← parsePrimary fuel tokens
    match rest with
    | [] => .error .undefined
    | token :: after =>
      match comparisonOp token.type with
      | none => .ok (left, rest)
      | some op =>
        let (right, rest) ← parsePrimary fuel after
        .ok (.binary op left right, rest)

def parsePrimary : Nat → List Token → Except Exn (Expr × List Token)
  | 0, _ => .error .undefined
  | _ + 1, [] => .error .undefined
  | fuel + 1, token :: rest =>
    match literalOf token with
    | some literal => .ok (.literal literal, rest)
    | none =>
      match token.type with
      | .lparen => do
        let (expr, rest) ← parseOr fuel rest
        let rest ← expect .rparen "')'".toList rest
        .ok (expr, rest)
      | .identifier => do
        match ← accept .lparen rest with
        | none => .ok (.property token.text, rest)
        | some inner =>
          match ← accept .rparen inner with
          | some rest => .ok (.functionCall token.text [], rest)
          | none =>
            let (args, rest) ← parseArgs fuel inner
            .ok (.functionCall token.text args, rest)
      | _ => .error (unexpected token)

/-- The argument loop, up to and including the closing parenthesis. -/
def parseArgs : Nat → List Token → Except Exn (List Expr × List Token)
  | 0, _ => .error .undefined
  | fuel + 1, tokens => do
    let (arg, rest) ← parseOr fuel tokens
    match ← accept .rparen rest with
    | some rest => .ok ([arg], rest)
    | none =>
      let rest ← expect .comma "','".toList rest
      let (args, rest) ← parseArgs fuel rest
      .ok (arg :: args, rest)
end

/-- Seven calls at most are open between two tokens (`parseOr_enough`). -/
def enough (tokens : List Token) : Nat := 7 * tokens.length + 7

def parse (tokens : List Token) : Except Exn Expr :=
  match tokens with
  | [] => .error .undefined
  | token :: _ =>
    if token.type = .end then .error (.odataParse "empty $filter expression".toList)
    else do
      match ← parseOr (enough tokens) tokens with
      | (_, []) => .error .undefined
      | (expr, token :: _) => if token.type = .end then .ok expr else .error (unexpected token)

end FilterParser

def parseFilter (filter : Str) : Except Exn Expr := do
  let tokens ← tokenize filter
  FilterParser.parse tokens

def parseSelect (select : Str) : List Str :=
  if select = [] then [] else ((fields ',' select).map trim).filter (· ≠ [])

/-- One `prop [asc|desc]` term. -/
def parseOrderByTerm (part : Str) : Except Exn OrderByTerm :=
  let term := trim part
  if term = [] then .error (.odataParse "empty term in $orderby".toList)
  else match cut ' ' term with
    | none => .ok { property := term }
    | some (property, after) =>
      let dir := toLower (trim after)
      if dir = "asc".toList then .ok { property, order := .asc }
      else if dir = "desc".toList then .ok { property, order := .desc }
      else .error (.odataParse ("invalid sort direction '".toList ++ dir ++ "' in $orderby".toList))

def parseOrderBy (orderby : Str) : Except Exn (List OrderByTerm) :=
  if orderby = [] then .ok [] else (fields ',' orderby).mapM parseOrderByTerm

def parseNonNegativeInt (name value : Str) : Except Exn Int :=
  if value = [] then .error (.odataParse ("empty value for $".toList ++ name))
  else match stoll value with
    | .error (.outOfRange _) =>
      .error (.odataParse ("value out of range for $".toList ++ name ++ ": '".toList ++ value ++ "'".toList))
    | .error (.invalidArgument _) =>
      .error (.odataParse ("invalid value for $".toList ++ name ++ ": '".toList ++ value ++ "'".toList))
    | .error other => .error other
    | .ok (parsed, used) =>
      if used ≠ value.length then
        .error (.odataParse ("invalid value for $".toList ++ name ++ ": '".toList ++ value ++ "'".toList))
      else if parsed < 0 then .error (.odataParse ("$".toList ++ name ++ " must not be negative".toList))
      else .ok parsed

def parseBooleanOption (name value : Str) : Except Exn Bool :=
  let lower := toLower value
  if lower = "true".toList ∨ lower = "1".toList then .ok true
  else if lower = "false".toList ∨ lower = "0".toList then .ok false
  else .error (.odataParse ("invalid boolean value for $".toList ++ name ++ ": '".toList ++ value ++ "'".toList))

end DuckdbOdata
