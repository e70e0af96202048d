import DuckdbOdata.Foundation.Recorded
import DuckdbOdata.Execution.ResultSerializer

/-! `Base64Encode` as the loop over `data[i]` that the source has it
(`execution/result_serializer.cpp`). Every index into the data is recorded; one
past the end is `Exn.undefined`. -/

namespace DuckdbOdata.Indexed
open Text

/-- `static_cast<unsigned char>(data[i])` -/
def byteAt (data : Str) (i : Nat) : Recorded Nat Exn Nat := do
  Recorded.note i
  match data[i]? with
  | some c => pure c.toNat
  | none => Recorded.lift (.error .undefined)

def tbl (i : Nat) : Char := "ABCDEFGHIJKLMNOPQRSTUVWXYZabcdefghijklmnopqrstuvwxyz0123456789+/".toList.getD i 'A'

/-- `while (i + 3 <= len)`: the index after the whole groups, and the output. -/
def groupLoop (data : Str) (i : Nat) (out : Str) : Recorded Nat Exn (Nat × Str) :=
  if i + 3 ≤ data.length then do
    let first ← byteAt data i
    let second ← byteAt data (i + 1)
    let third ← byteAt data (i + 2)
    let n := first <<< 16 ||| second <<< 8 ||| third
    groupLoop data (i + 3)
      (out ++ [tbl (n >>> 18 &&& 63), tbl (n >>> 12 &&& 63), tbl (n >>> 6 &&& 63), tbl (n &&& 63)])
  else pure (i, out)
termination_by data.length - i

def base64Encode (data : Str) : Recorded Nat Exn Str := do
  let (i, out) ← groupLoop data 0 []
  if i + 1 = data.length then
    let first ← byteAt data i
    let n := first <<< 16
    pure (out ++ [tbl (n >>> 18 &&& 63), tbl (n >>> 12 &&& 63), '=', '='])
  else if i + 2 = data.length then
    let first ← byteAt data i
    let second ← byteAt data (i + 1)
    let n := first <<< 16 ||| second <<< 8
    pure (out ++ [tbl (n >>> 18 &&& 63), tbl (n >>> 12 &&& 63), tbl (n >>> 6 &&& 63), '='])
  else pure out

end DuckdbOdata.Indexed
