import DuckdbOdata.Common.StringUtil
import DuckdbOdata.Foundation.Binary64

/-! The C++ standard library's number conversions, with the exceptions they
throw. Both read the longest numeric prefix and ignore what follows it. -/

namespace DuckdbOdata
open Text Binary64

/-- An optional sign and the rest of the text. -/
def takeSign : Str → Bool × Str
  | '-' :: rest => (true, rest)
  | '+' :: rest => (false, rest)
  | rest => (false, rest)

def takeDigits (text : Str) : Str := text.takeWhile Char.isDigit
def dropDigits (text : Str) : Str := text.dropWhile Char.isDigit

/-- The value as a `long long`, if it is one, and the number of characters read. -/
def asLongLong (value : Int) (used : Nat) : Except Exn (Int × Nat) :=
  if int64Min ≤ value ∧ value ≤ int64Max then .ok (value, used) else .error (.outOfRange "stoll".toList)

def signed (negative : Bool) (magnitude : Nat) : Int := if negative then -magnitude else magnitude

/-- `std::stoll(text, &idx, 10)`: the value and the number of characters read. -/
def stoll (text : Str) : Except Exn (Int × Nat) :=
  let (negative, body) := takeSign (text.dropWhile isSpace)
  if takeDigits body = [] then .error (.invalidArgument "stoll".toList)
  else asLongLong (signed negative (Nat.ofDigitChars 10 (takeDigits body) 0)) (text.length - (dropDigits body).length)

/-- `std::stoi` -/
def stoi (text : Str) : Except Exn Int :=
  match stoll text with
  | .error failure => .error failure
  | .ok (value, _) => if -2147483648 ≤ value ∧ value ≤ 2147483647 then .ok value else .error (.outOfRange "stoi".toList)

/-- The fraction digits after a `.`, and the rest. -/
def takeFraction : Str → Str × Str
  | '.' :: rest => (takeDigits rest, dropDigits rest)
  | rest => ([], rest)

/-- The value of an exponent part. One without digits is not part of the number. -/
def takeExponent : Str → Int
  | [] => 0
  | c :: rest =>
    if c = 'e' ∨ c = 'E' then
      let (negative, body) := takeSign rest
      signed negative (Nat.ofDigitChars 10 (takeDigits body) 0)
    else 0

/-- A decimal text as sign, digits and power of ten. -/
structure Decimal where
  negative : Bool
  digits : Str
  exponent : Int

def readDecimal (text : Str) : Decimal :=
  let (negative, body) := takeSign text
  let (fraction, rest) := takeFraction (dropDigits body)
  ⟨negative, takeDigits body ++ fraction, takeExponent rest - fraction.length⟩

/-- The absolute value as a fraction. -/
def Decimal.ratio (d : Decimal) : Nat × Nat :=
  let magnitude := Nat.ofDigitChars 10 d.digits 0
  if 0 ≤ d.exponent then (magnitude * 10 ^ d.exponent.toNat, 1) else (magnitude, 10 ^ (-d.exponent).toNat)

/-- `std::stod` on a decimal text. `strtod` reports an overflow as a range error, and
an inexact result that is tiny: whether it is tiny is decided after rounding. -/
def stod (text : Str) : Except Exn Double :=
  let decimal := readDecimal text
  if decimal.digits = [] then .error (.invalidArgument "stod".toList)
  else
    match ofRatio decimal.negative decimal.ratio.1 decimal.ratio.2 with
    | none => .error (.outOfRange "stod".toList)
    | some d =>
      if Underflows decimal.ratio.1 decimal.ratio.2 d then .error (.outOfRange "stod".toList) else .ok d

end DuckdbOdata
