import DuckdbOdata.Foundation.Text

/-! Quoting, escaping and URL utilities shared by the extension
(`common/string_util.cpp`), and the exceptions its layers throw. -/

namespace DuckdbOdata
open Text

/-- Only `odataParse` is caught by the request handler; the standard library's
exceptions are different types and pass through it. `undefined` is no exception:
it marks an access outside a container, or a loop of the model out of fuel. -/
inductive Exn
  | odataParse (message : Str)
  | invalidArgument (what : Str)
  | outOfRange (what : Str)
  | duckdb (what : Str)
  | undefined
deriving DecidableEq, Repr

def quoteIdentifier (name : Str) : Str := enquote '"' name

def quoteStringLiteral (value : Str) : Str := enquote '\'' value

def hexDigit (n : Nat) : Char := "0123456789abcdef".toList.getD n '0'

/-- One byte inside a JSON string. Bytes from 0x20 on, except the quote and the
backslash, are copied, so UTF-8 sequences pass through unchanged. -/
def jsonEscapeChar (c : Char) : Str :=
  if c = '"' then ['\\', '"']
  else if c = '\\' then ['\\', '\\']
  else if c = Char.ofNat 8 then ['\\', 'b']
  else if c = Char.ofNat 12 then ['\\', 'f']
  else if c = '\n' then ['\\', 'n']
  else if c = '\r' then ['\\', 'r']
  else if c = '\t' then ['\\', 't']
  else if c.toNat < 32 then ['\\', 'u', '0', '0', hexDigit (c.toNat / 16), hexDigit (c.toNat % 16)]
  else [c]

def jsonEscape (value : Str) : Str := value.flatMap jsonEscapeChar

def hexValue (c : Char) : Option Nat :=
  if '0' ≤ c ∧ c ≤ '9' then some (c.toNat - '0'.toNat)
  else if 'a' ≤ c ∧ c ≤ 'f' then some (c.toNat - 'a'.toNat + 10)
  else if 'A' ≤ c ∧ c ≤ 'F' then some (c.toNat - 'A'.toNat + 10)
  else none

def urlDecode : Str → Str
  | [] => []
  | '%' :: high :: low :: rest =>
    match hexValue high, hexValue low with
    | some hi, some lo => Char.ofNat (hi * 16 + lo) :: urlDecode rest
    | _, _ => '%' :: urlDecode (high :: low :: rest)
  | c :: rest => (if c = '+' then ' ' else c) :: urlDecode rest

/-- Decoded name and value pairs, in order; empty pairs are dropped. -/
def parseQueryString (query : Str) : List (Str × Str) :=
  ((fields '&' query).filter (· ≠ [])).map fun pair =>
    match cut '=' pair with
    | none => (urlDecode pair, [])
    | some (name, value) => (urlDecode name, urlDecode value)

/-- `std::tolower` in the C locale: ASCII letters only. -/
def toLower (input : Str) : Str := input.map Char.toLower

/-- `std::isspace` in the C locale. -/
def isSpace (c : Char) : Bool :=
  c == ' ' || c == '\t' || c == '\n' || c == '\r' || c == Char.ofNat 11 || c == Char.ofNat 12

def trim (input : Str) : Str := ((input.dropWhile isSpace).reverse.dropWhile isSpace).reverse

/-- `std::to_string` of an integer. -/
def intText (i : Int) : Str :=
  if i < 0 then '-' :: Nat.toDigits 10 i.natAbs else Nat.toDigits 10 i.natAbs

def int64Min : Int := -9223372036854775808
def int64Max : Int := 9223372036854775807

end DuckdbOdata
