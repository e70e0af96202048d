import DuckdbOdata.Foundation.Recorded
import DuckdbOdata.Parser.ODataParser

/-! `FilterParser` with the index `pos` into the token vector that the source
advances (`parser/odata_parser.cpp`). Every `tokens[pos]` and every `pos++` is
recorded, and every call and loop iteration with those it is made in; a token
past the end is `Exn.undefined`. -/

namespace DuckdbOdata.Indexed.FilterParser
open Text
open DuckdbOdata.FilterParser (literalOf comparisonOp unexpected)

inductive Routine
  | argLoop | parseOr | orLoop | parseAnd | andLoop | parseNot | parseComparison | parsePrimary
deriving DecidableEq

/-- A call of a function, or an iteration of a loop, and the index at which it starts. -/
structure Call where
  routine : Routine
  pos : Nat

/-- `opened` holds the calls that have not returned and the earlier iterations
of the loops they are in. -/
inductive Visit
  | read (pos : Nat)
  | consume (pos : Nat)
  | enter (call : Call) (opened : List Call)

abbrev Parsing := Recorded Visit Exn

def enter (routine : Routine) (pos : Nat) (opened : List Call) : Parsing (List Call) := do
  Recorded.note (.enter ⟨routine, pos⟩ opened)
  pure (⟨routine, pos⟩ :: opened)

/-- `pos++` -/
def advance (pos : Nat) : Parsing Nat := do
  Recorded.note (.consume pos)
  pure (pos + 1)

variable (tokens : List Token)

def peek (pos : Nat) : Parsing Token := do
  Recorded.note (.read pos)
  match tokens[pos]? with
  | some token => pure token
  | none => Recorded.lift (.error .undefined)

/-- `Match`: the index after the next token if that has the wanted type. -/
def accept (type : TokenType) (pos : Nat) : Parsing (Option Nat) := do
  let token ← peek tokens pos
  if token.type = type then
    let next ← advance pos
    pure (some next)
  else pure none

def expect (type : TokenType) (what : Str) (pos : Nat) : Parsing Nat := do
  let token ← peek tokens pos
  if token.type = type then advance pos
  else
    let found ← peek tokens pos
    Recorded.lift (.error (.odataParse ("expected ".toList ++ what ++ " but found '".toList ++ found.text ++ "'".toList)))

mutual
def parseOr : Nat → List Call → Nat → Parsing (Expr × Nat)
  | 0, _, _ => Recorded.lift (.error .undefined)
  | fuel + 1, opened, pos => do
    let opened ← enter .parseOr pos opened
    let (left, pos) ← parseAnd fuel opened pos
    orLoop fuel opened left pos
termination_by structural fuel => fuel

/-- `while (Match(OR))` with the expression built so far. -/
def orLoop : Nat → List Call → Expr → Nat → Parsing (Expr × Nat)
  | 0, _, _, _ => Recorded.lift (.error .undefined)
  | fuel + 1, opened, left, pos => do
    let opened ← enter .orLoop pos opened
    match ← accept tokens .or pos with
    | none => pure (left, pos)
    | some pos =>
      let (right, pos) ← parseAnd fuel opened pos
      orLoop fuel opened (.binary .or left right) pos
termination_by structural fuel => fuel

def parseAnd : Nat → List Call → Nat → Parsing (Expr × Nat)
  | 0, _, _ => Recorded.lift (.error .undefined)
  | fuel + 1, opened, pos => do
    let opened ← enter .parseAnd pos opened
    let (left, pos) ← parseNot fuel opened pos
    andLoop fuel opened left pos
termination_by structural fuel => fuel

/-- `while (Match(AND))` with the expression built so far. -/
def andLoop : Nat → List Call → Expr → Nat → Parsing (Expr × Nat)
  | 0, _, _, _ => Recorded.lift (.error .undefined)
  | fuel + 1, opened, left, pos => do
    let opened ← enter .andLoop pos opened
    match ← accept tokens .and pos with
    | none => pure (left, pos)
    | some pos =>
      let (right, pos) ← parseNot fuel opened pos
      andLoop fuel opened (.binary .and left right) pos
termination_by structural fuel => fuel

def parseNot : Nat → List Call → Nat → Parsing (Expr × Nat)
  | 0, _, _ => Recorded.lift (.error .undefined)
  | fuel + 1, opened, pos => do
    let opened ← enter .parseNot pos opened
    match ← accept tokens .not pos with
    | some pos =>
      let (child, pos) ← parseNot fuel opened pos
      pure (.unary .not child, pos)
    | none => parseComparison fuel opened pos
termination_by structural fuel => fuel

def parseComparison : Nat → List Call → Nat → Parsing (Expr × Nat)
  | 0, _, _ => Recorded.lift (.error .undefined)
  | fuel + 1, opened, pos => do
    let opened ← enter .parseComparison pos opened
    let (left, pos) ← parsePrimary fuel opened pos
    let token ← peek tokens pos
    match comparisonOp token.type with
    | none => pure (left, pos)
    | some op =>
      let pos ← advance pos
      let (right, pos) ← parsePrimary fuel opened pos
      pure (.binary op left right, pos)
termination_by structural fuel => fuel

def parsePrimary : Nat → List Call → Nat → Parsing (Expr × Nat)
  | 0, _, _ => Recorded.lift (.error .undefined)
  | fuel + 1, opened, pos => do
    let opened ← enter .parsePrimary pos opened
    let tok ← peek tokens pos
    match literalOf tok with
    | some literal =>
      let pos ← advance pos
      pure (.literal literal, pos)
    | none =>
      match tok.type with
      | .lparen =>
        let pos ← advance pos
        let (expr, pos) ← parseOr fuel opened pos
        let pos ← expect tokens .rparen "')'".toList pos
        pure (expr, pos)
      | .identifier =>
        let pos ← advance pos
        match ← accept tokens .lparen pos with
        | none => pure (.property tok.text, pos)
        | some pos =>
          match ← accept tokens .rparen pos with
          | some pos => pure (.functionCall tok.text [], pos)
          | none =>
            let (args, pos) ← argLoop fuel opened pos
            pure (.functionCall tok.text args, pos)
      | _ => Recorded.lift (.error (unexpected tok))
termination_by structural fuel => fuel

/-- `while (true)` over the arguments, up to and including the closing parenthesis. -/
def argLoop : Nat → List Call → Nat → Parsing (List Expr × Nat)
  | 0, _, _ => Recorded.lift (.error .undefined)
  | fuel + 1, opened, pos => do
    let opened ← enter .argLoop pos opened
    let (arg, pos) ← parseOr fuel opened pos
    match ← accept tokens .rparen pos with
    | some pos => pure ([arg], pos)
    | none =>
      let pos ← expect tokens .comma "','".toList pos
      let (args, pos) ← argLoop fuel opened pos
      pure (arg :: args, pos)
termination_by structural fuel => fuel
end

def parse (fuel : Nat) : Parsing Expr := do
  let first ← peek tokens 0
  if first.type = .end then Recorded.lift (.error (.odataParse "empty $filter expression".toList))
  else
    let (expr, pos) ← parseOr tokens fuel [] 0
    let last ← peek tokens pos
    if last.type = .end then pure expr
    else
      let found ← peek tokens pos
      Recorded.lift (.error (unexpected found))

end DuckdbOdata.Indexed.FilterParser
