import DuckdbOdata.Foundation.Text

/-! Base64 texts: groups of four digits stand for three bytes, and the last group
may be padded. The unused bits of a padded group must be zero. -/

namespace Base64
open Text

def alphabet : Str := "ABCDEFGHIJKLMNOPQRSTUVWXYZabcdefghijklmnopqrstuvwxyz0123456789+/".toList

/-- The value of a digit. -/
def digit (c : Char) : Option Nat := alphabet.findIdx? (· = c)

def byte (n : Nat) : Char := Char.ofNat (n % 256)

/-- The bytes of a padded group. -/
def lastGroup (a b c : Char) : Option Str := do
  let w ← digit a
  let x ← digit b
  if c = '=' then
    if x % 16 = 0 then some [byte (w * 4 + x / 16)] else none
  else
    let y ← digit c
    if y % 4 = 0 then some [byte (w * 4 + x / 16), byte (x * 16 + y / 4)] else none

/-- The bytes of a group without padding. -/
def group (a b c d : Char) : Option Str := do
  let w ← digit a
  let x ← digit b
  let y ← digit c
  let z ← digit d
  some [byte (w * 4 + x / 16), byte (x * 16 + y / 4), byte (y * 64 + z)]

def decode : Str → Option Str
  | [] => some []
  | a :: b :: c :: d :: rest =>
    if d = '=' then if rest = [] then lastGroup a b c else none
    else do
      let bytes ← group a b c d
      let more ← decode rest
      some (bytes ++ more)
  | _ => none

example : decode "aGVsbG8=".toList = some "hello".toList := by decide +kernel

/-- The digit of a six-bit value. -/
def digitOf (n : Nat) : Char := alphabet.getD n 'A'

theorem digit_digitOf {n : Nat} (six : n < 64) : digit (digitOf n) = some n ∧ digitOf n ≠ '=' := by
  have all : ∀ n ∈ List.range 64, digit (digitOf n) = some n ∧ digitOf n ≠ '=' := by decide +kernel
  exact all n (List.mem_range.mpr six)

theorem byte_toNat {c : Char} {n : Nat} (same : n % 256 = c.toNat) : byte n = c := by
  rw [byte, same, Char.ofNat_toNat]

theorem decode_group {w x y z : Nat} (one : w < 64) (two : x < 64) (three : y < 64) (four : z < 64) (rest : Str) :
    decode (digitOf w :: digitOf x :: digitOf y :: digitOf z :: rest) =
      (decode rest).map ([byte (w * 4 + x / 16), byte (x * 16 + y / 4), byte (y * 64 + z)] ++ ·) := by
  rw [decode, if_neg (digit_digitOf four).2, group, (digit_digitOf one).1, (digit_digitOf two).1, (digit_digitOf three).1,
    (digit_digitOf four).1]
  show (decode rest).bind _ = _
  cases decode rest <;> rfl

theorem decode_two {w x y : Nat} (one : w < 64) (two : x < 64) (three : y < 64) (zero : y % 4 = 0) :
    decode [digitOf w, digitOf x, digitOf y, '='] = some [byte (w * 4 + x / 16), byte (x * 16 + y / 4)] := by
  rw [decode, if_pos rfl, if_pos rfl, lastGroup, (digit_digitOf one).1, (digit_digitOf two).1]
  show (if digitOf y = '=' then _ else _) = _
  rw [if_neg (digit_digitOf three).2, (digit_digitOf three).1]
  exact if_pos zero

theorem decode_one {w x : Nat} (one : w < 64) (two : x < 64) (zero : x % 16 = 0) :
    decode [digitOf w, digitOf x, '=', '='] = some [byte (w * 4 + x / 16)] := by
  rw [decode, if_pos rfl, if_pos rfl, lastGroup, (digit_digitOf one).1, (digit_digitOf two).1]
  exact if_pos zero

end Base64
