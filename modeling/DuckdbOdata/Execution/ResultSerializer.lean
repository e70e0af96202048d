import DuckdbOdata.Execution.Database

/-! JSON text of values and rows (`execution/result_serializer.cpp`). -/

namespace DuckdbOdata
open Text Binary64

/-- Six decimals without their trailing zeros; one is kept. -/
def trimZeros (s : Str) : Str :=
  match cut '.' s with
  | none => s
  | some (whole, fraction) =>
    let kept := (fraction.reverse.dropWhile (· = '0')).reverse
    whole ++ '.' :: (if kept = [] then fraction.take 1 else kept)

def formatDouble : Option Double → Str
  | none => "null".toList
  | some d => trimZeros d.fixed

def base64Digit (n : Nat) : Char :=
  "ABCDEFGHIJKLMNOPQRSTUVWXYZabcdefghijklmnopqrstuvwxyz0123456789+/".toList.getD (n % 64) 'A'

def base64Encode : Str → Str
  | [] => []
  | [a] =>
    let n := a.toNat * 65536
    [base64Digit (n / 262144), base64Digit (n / 4096), '=', '=']
  | [a, b] =>
    let n := a.toNat * 65536 + b.toNat * 256
    [base64Digit (n / 262144), base64Digit (n / 4096), base64Digit (n / 64), '=']
  | a :: b :: c :: rest =>
    let n := a.toNat * 65536 + b.toNat * 256 + c.toNat
    base64Digit (n / 262144) :: base64Digit (n / 4096) :: base64Digit (n / 64) :: base64Digit n :: base64Encode rest

def jsonString (value : Str) : Str := '"' :: (jsonEscape value ++ ['"'])

def valueToJson : Value → Str
  | .null => "null".toList
  | .boolean value => if value then "true".toList else "false".toList
  | .integer value => intText value
  | .float value _ => formatDouble value
  | .numeric shown => shown
  | .text shown => jsonString shown
  | .blob bytes _ => '"' :: (base64Encode bytes ++ ['"'])
  | .other shown => jsonString shown

/-- `"name":value`, the columns separated by commas. -/
def serializeMembers (names : List Str) (row : Row) : Str :=
  ",".toList.intercalate ((names.zip row).map fun (name, value) => jsonString name ++ ':' :: valueToJson value)

/-- The rows of all chunks, and their number. -/
def serializeRows (result : ResultSet) : Str × Nat :=
  (",".toList.intercalate (result.rows.map fun row => '{' :: (serializeMembers result.names row ++ ['}'])),
    result.rows.length)

/-- Only the first chunk is fetched. -/
def serializeFirstRowMembers (result : ResultSet) : Option Str :=
  match result.chunks with
  | (row :: _) :: _ => some (serializeMembers result.names row)
  | _ => none

end DuckdbOdata
