import DuckdbOdata.Common.StringUtil

/-! `UrlDecode` and `ParseQueryString` as the loops over positions that the source
has them (`common/string_util.cpp`). Every index comes with its bound. -/

namespace DuckdbOdata.Indexed
open Text

/-- The decoded text from position `i` on. -/
def urlDecodeFrom (input : Str) (i : Nat) : Str :=
  if inside : i < input.length then
    let c := input[i]
    if look : c = '%' ∧ i + 2 < input.length then
      match hexValue (input.get ⟨i + 1, Nat.lt_of_succ_lt look.2⟩), hexValue (input.get ⟨i + 2, look.2⟩) with
      | some hi, some lo => Char.ofNat (hi <<< 4 ||| lo) :: urlDecodeFrom input (i + 3)
      | _, _ => c :: urlDecodeFrom input (i + 1)
    else if c = '+' then ' ' :: urlDecodeFrom input (i + 1)
    else c :: urlDecodeFrom input (i + 1)
  else []
termination_by input.length - i

def urlDecode (input : Str) : Str := urlDecodeFrom input 0

/-- `text.find(c, pos)`; `none` is `npos`. -/
def find (text : Str) (c : Char) (pos : Nat) : Option Nat := ((text.drop pos).findIdx? (· = c)).map (pos + ·)

theorem find_ge {text : Str} {c : Char} {pos found : Nat} (first : find text c pos = some found) : pos ≤ found := by
  obtain ⟨index, -, rfl⟩ := Option.map_eq_some_iff.mp first
  exact Nat.le_add_right pos index

/-- What one pair adds to the result. -/
def pairOf (pair : Str) : List (Str × Str) :=
  if pair = [] then []
  else match find pair '=' 0 with
    | none => [(urlDecode pair, [])]
    | some eq => [(urlDecode (pair.take eq), urlDecode (pair.drop (eq + 1)))]

/-- `while (pos <= query.size())` -/
def queryLoop (query : Str) (pos : Nat) : List (Str × Str) :=
  if pos ≤ query.length then
    match _found : find query '&' pos with
    | none => pairOf (query.drop pos)
    | some amp => pairOf ((query.drop pos).take (amp - pos)) ++ queryLoop query (amp + 1)
  else []
termination_by query.length + 1 - pos
decreasing_by
  have later := find_ge _found
  omega

def parseQueryString (query : Str) : List (Str × Str) := if query = [] then [] else queryLoop query 0

end DuckdbOdata.Indexed
