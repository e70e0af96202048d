import Mathlib.Data.Nat.Log
import Mathlib.Data.Rat.Defs
import Mathlib.Tactic.Linarith
import DuckdbOdata.Foundation.Text

/-! Finite binary64 numbers as exact multiples of the least subnormal, with the
two library conversions a text protocol uses: rounding a decimal to the nearest
number, and printing a number with six decimal places. -/

namespace Binary64
open Text

/-- The least positive number is `1 / unit`. -/
def unit : Nat := 2 ^ 1074

/-- A finite number `± significand * 2 ^ shift / unit`. Only subnormal numbers
may have a significand below `2 ^ 52`, so every number has one representation
(and zero has two, by sign). -/
structure Double where
  negative : Bool
  significand : Nat
  shift : Nat
  bounded : significand < 2 ^ 53 ∧ shift ≤ 2045 ∧ (shift = 0 ∨ 2 ^ 52 ≤ significand)
deriving DecidableEq

def Double.zero : Double := ⟨false, 0, 0, by decide⟩

instance : Inhabited Double := ⟨Double.zero⟩

/-- The absolute value, counted in units of the least positive number. -/
def Double.units (d : Double) : Nat := d.significand * 2 ^ d.shift

def Double.toRat (d : Double) : ℚ :=
  (if d.negative then -1 else 1) * d.units / unit

/-- `numerator / denominator` to the nearest natural number, ties to even. -/
def roundHalfEven (numerator denominator : Nat) : Nat :=
  let quotient := numerator / denominator
  let remainder := numerator % denominator
  if 2 * remainder < denominator then quotient
  else if denominator < 2 * remainder then quotient + 1
  else if quotient % 2 = 0 then quotient else quotient + 1

theorem roundHalfEven_bounds (numerator denominator : Nat) :
    numerator / denominator ≤ roundHalfEven numerator denominator ∧
      roundHalfEven numerator denominator ≤ numerator / denominator + 1 := by
  simp only [roundHalfEven]
  split
  · omega
  · split
    · omega
    · split <;> omega

/-- The shift at which `units` has a 53-bit significand, 0 for subnormals. -/
def scale (units : Nat) : Nat := Nat.log 2 units - 52

theorem scaled_lt (units : Nat) : units / 2 ^ scale units < 2 ^ 53 := by
  have below := Nat.lt_pow_succ_log_self (b := 2) (by omega) units
  rw [Nat.div_lt_iff_lt_mul (by positivity), ← Nat.pow_add]
  exact below.trans_le (Nat.pow_le_pow_right (by omega) (by simp only [scale]; omega))

theorem scaled_ge (units : Nat) (large : scale units ≠ 0) : 2 ^ 52 ≤ units / 2 ^ scale units := by
  simp only [scale] at large ⊢
  rw [Nat.le_div_iff_mul_le (by positivity), ← Nat.pow_add]
  calc 2 ^ (52 + (Nat.log 2 units - 52)) = 2 ^ Nat.log 2 units := by congr 1; omega
    _ ≤ units := Nat.pow_log_le_self 2 (by rintro rfl; simp at large)

/-- Rounding at the chosen shift gives at most 53 bits, or exactly `2 ^ 53`. -/
theorem rounded_bounds (numerator denominator : Nat) :
    roundHalfEven numerator (denominator * 2 ^ scale (numerator / denominator)) ≤ 2 ^ 53 ∧
      (scale (numerator / denominator) = 0 ∨
        2 ^ 52 ≤ roundHalfEven numerator (denominator * 2 ^ scale (numerator / denominator))) := by
  have near := roundHalfEven_bounds numerator (denominator * 2 ^ scale (numerator / denominator))
  rw [← Nat.div_div_eq_div_mul] at near
  have below := scaled_lt (numerator / denominator)
  refine ⟨near.2.trans below, ?_⟩
  by_cases small : scale (numerator / denominator) = 0
  · exact .inl small
  · exact .inr ((scaled_ge _ small).trans near.1)

/-- A rounded significand and its shift, after a carry into the 54th bit. -/
def carry (significand shift : Nat) : Nat × Nat :=
  if significand = 2 ^ 53 then (2 ^ 52, shift + 1) else (significand, shift)

theorem carry_bounded (significand shift : Nat) (upper : significand ≤ 2 ^ 53)
    (lower : shift = 0 ∨ 2 ^ 52 ≤ significand) :
    (carry significand shift).1 < 2 ^ 53 ∧
      ((carry significand shift).2 = 0 ∨ 2 ^ 52 ≤ (carry significand shift).1) := by
  unfold carry
  split
  · simp
  next small => exact ⟨lt_of_le_of_ne upper small, lower⟩

/-- The fraction `numerator / denominator`, counted in units, on the 53-bit grid. -/
def rounded (numerator denominator : Nat) : Nat × Nat :=
  let shift := scale (numerator / denominator)
  carry (roundHalfEven numerator (denominator * 2 ^ shift)) shift

theorem rounded_bounded (numerator denominator : Nat) :
    (rounded numerator denominator).1 < 2 ^ 53 ∧
      ((rounded numerator denominator).2 = 0 ∨ 2 ^ 52 ≤ (rounded numerator denominator).1) :=
  carry_bounded _ _ (rounded_bounds numerator denominator).1 (rounded_bounds numerator denominator).2

/-- Round a fraction to the nearest number. `none` is an overflow. -/
def ofRatio (negative : Bool) (numerator denominator : Nat) : Option Double :=
  if bound : (rounded (numerator * unit) denominator).2 ≤ 2045 then
    have grid := rounded_bounded (numerator * unit) denominator
    some ⟨negative, _, _, grid.1, bound, grid.2⟩
  else none

/-- A fraction that is not exact and that stays below the least normal number,
`2 ^ 52` units, when it is rounded to 53 bits whatever its exponent. Just below that
number these bits end at half a unit. -/
def Underflows (numerator denominator : Nat) (result : Double) : Prop :=
  roundHalfEven (2 * (numerator * unit)) denominator < 2 ^ 53 ∧ result.units * denominator ≠ numerator * unit

instance (numerator denominator : Nat) (result : Double) : Decidable (Underflows numerator denominator result) :=
  inferInstanceAs (Decidable (_ ∧ _))

/-- The decimal digits of a natural number, padded with zeros to `width`. -/
def padded (width n : Nat) : Str :=
  List.replicate (width - (Nat.toDigits 10 n).length) '0' ++ Nat.toDigits 10 n

/-- A count of millionths with its six decimal places. -/
def decimalText (millionths : Nat) : Str :=
  Nat.toDigits 10 (millionths / 10 ^ 6) ++ '.' :: padded 6 (millionths % 10 ^ 6)

/-- The absolute value rounded to six decimal places, ties to even. -/
def Double.unsigned (d : Double) : Str := decimalText (roundHalfEven (d.units * 10 ^ 6) unit)

/-- `printf "%f"` -/
def Double.fixed (d : Double) : Str := (if d.negative then ['-'] else []) ++ d.unsigned

theorem padded_digits {width n : Nat} {c : Char} (member : c ∈ padded width n) : c.isDigit := by
  simp only [padded, List.mem_append, List.mem_replicate] at member
  rcases member with ⟨-, rfl⟩ | member
  · decide
  · exact Nat.isDigit_of_mem_toDigits (by decide) (by decide) member

end Binary64
