import DuckdbOdata.Foundation.NearestDouble
import DuckdbOdata.Proofs.JsonTexts
import DuckdbOdata.Proofs.Numerals

/-! The numbers that the served texts of doubles denote. Trimming the zeros keeps
the number; the number is nearest to the double it was printed from only if six
decimal places can say which double that is. -/

namespace DuckdbOdata.DoubleTexts
open Text Binary64 Numerals

/-- The number that a decimal numeral denotes. -/
def denoted (text : Str) : ℚ :=
  fraction (readDecimal text).negative (readDecimal text).ratio.1 (readDecimal text).ratio.2

section
variable {negative : Bool} {whole places : Str}

private theorem denoted_point (present : whole ≠ []) (all : Digits whole) (digits : Digits places) :
    denoted (minus negative ++ (whole ++ '.' :: places)) =
      fraction negative (Nat.ofDigitChars 10 (whole ++ places) 0) (10 ^ places.length) := by
  have read := @readDecimal_numeral negative _ _ _ _ _ present all (.point digits) .absent
  rw [List.append_nil] at read
  unfold denoted
  rw [read]
  unfold Decimal.ratio
  dsimp only
  split
  next few =>
    have none : places.length = 0 := by omega
    rw [none, Nat.cast_zero, sub_zero, Int.toNat_zero, pow_zero, mul_one]
  next => rw [zero_sub, neg_neg, Int.toNat_natCast]

private theorem fraction_zeros (numerator denominator zeros : Nat) :
    fraction negative (numerator * 10 ^ zeros) (denominator * 10 ^ zeros) = fraction negative numerator denominator := by
  have power : ((10 ^ zeros : ℕ) : ℚ) ≠ 0 := by exact_mod_cast (Nat.pow_pos (by decide)).ne'
  unfold fraction
  rw [Nat.cast_mul, Nat.cast_mul, ← mul_assoc, mul_div_mul_right _ _ power]

/-- Zeros at the end of the places do not change the number. -/
theorem denoted_zeros (present : whole ≠ []) (all : Digits whole) (digits : Digits places) (zeros : Nat) :
    denoted (minus negative ++ (whole ++ '.' :: (places ++ List.replicate zeros '0'))) =
      denoted (minus negative ++ (whole ++ '.' :: places)) := by
  have more : Digits (places ++ List.replicate zeros '0') := by
    intro c member
    rcases List.mem_append.mp member with digit | zero
    · exact digits c digit
    · rw [List.eq_of_mem_replicate zero]
      rfl
  rw [denoted_point present all digits, denoted_point present all more, ← List.append_assoc, Nat.ofDigitChars_append,
    Nat.ofDigitChars_replicate_zero, List.length_append, List.length_replicate, Nat.pow_add, Nat.mul_comm (10 ^ zeros),
    fraction_zeros]

end

private theorem digits_printed (n : Nat) : Digits (Nat.toDigits 10 n) := fun _ member =>
  Nat.isDigit_of_mem_toDigits (by decide) (by decide) member

private theorem digits_padded (width n : Nat) : Digits (padded width n) := fun _ member => padded_digits member

/-- What is printed denotes the nearest count of millionths. -/
theorem denoted_fixed (d : Double) : denoted d.fixed = fraction d.negative (roundHalfEven (d.units * 10 ^ 6) unit) (10 ^ 6) := by
  have read := @denoted_point d.negative _ _ Nat.toDigits_ne_nil
    (digits_printed (roundHalfEven (d.units * 10 ^ 6) unit / 10 ^ 6))
    (digits_padded 6 (roundHalfEven (d.units * 10 ^ 6) unit % 10 ^ 6))
  rw [decimalText_value, padded_length (by decide) (Nat.mod_lt _ (by decide))] at read
  exact read

private theorem formatDouble_places (d : Double) :
    ∃ whole places, formatDouble (some d) = minus d.negative ++ (whole ++ '.' :: places) ∧ Digits whole ∧ places ≠ [] ∧
      Digits places ∧ denoted (formatDouble (some d)) = denoted d.fixed := by
  generalize whole : Nat.toDigits 10 (roundHalfEven (d.units * 10 ^ 6) unit / 10 ^ 6) = before
  generalize padding : padded 6 (roundHalfEven (d.units * 10 ^ 6) unit % 10 ^ 6) = after
  have all : Digits before := whole ▸ digits_printed _
  have digits : Digits after := padding ▸ digits_padded _ _
  have present : before ≠ [] := whole ▸ Nat.toDigits_ne_nil
  have plain : '.' ∉ minus d.negative ++ before := by
    intro member
    rcases List.mem_append.mp member with sign | digit
    · revert sign
      unfold minus
      split <;> decide
    · exact absurd (all _ digit) (by decide)
  have some : after ≠ [] := by
    rw [← List.length_pos_iff, ← padding, padded_length (by decide) (Nat.mod_lt _ (by decide))]
    decide
  obtain ⟨kept, zeros, trimmed, remains, rfl⟩ := JsonTexts.trimZeros_places plain some
  have shape : d.fixed = minus d.negative ++ (before ++ '.' :: (kept ++ List.replicate zeros '0')) := by
    rw [Double.fixed, Double.unsigned, decimalText, whole, padding]
    rfl
  have keptDigits : Digits kept := fun c member => digits c (List.mem_append_left _ member)
  rw [← List.append_assoc] at shape
  rw [formatDouble, shape, trimmed, List.append_assoc, List.append_assoc]
  exact ⟨before, kept, rfl, all, remains, keptDigits, (denoted_zeros present all keptDigits zeros).symm⟩

/-- The text of every double is a JSON number with a place, trimming its zeros
keeps the number, and the number is nearest to the double if and only if some
decimal with six places is. -/
theorem formatDouble_nearest (d : Double) :
    Json.isNumber (formatDouble (some d)) = true ∧ denoted (formatDouble (some d)) = denoted d.fixed ∧
      (∃ whole places, formatDouble (some d) = minus d.negative ++ (whole ++ '.' :: places) ∧ Digits whole ∧
        places ≠ [] ∧ Digits places) ∧
      (Nearest (denoted (formatDouble (some d))) d ↔ ∃ millionths : ℤ, Nearest (millionths / 10 ^ 6) d) := by
  obtain ⟨whole, places, shape, all, some, digits, same⟩ := formatDouble_places d
  refine ⟨JsonTexts.formatDouble_number d, same, ⟨whole, places, shape, all, some, digits⟩, ?_⟩
  rw [same, denoted_fixed]
  constructor
  · intro nearest
    refine ⟨(if d.negative then -1 else 1) * roundHalfEven (d.units * 10 ^ 6) unit, ?_⟩
    convert nearest using 1
    unfold fraction
    push_cast
    rfl
  · intro ⟨millionths, nearest⟩
    exact nearest_millionths nearest

/-- About a thousand-millionth. -/
private def small : Double := ⟨false, 2 ^ 52, 992, by decide⟩

private theorem formatDouble_small : formatDouble (some small) = "0.0".toList := by decide +kernel

private theorem denoted_none : denoted "0.0".toList = 0 := by
  have read : denoted "0.0".toList = fraction false 0 10 := @denoted_point false ['0'] ['0']
    (by decide) (every (by decide)) (every (by decide))
  rw [read, fraction, Nat.cast_zero, mul_zero, zero_div]

/-- It is served as zero, and zero is nearer. -/
theorem formatDouble_nearest_small :
    ∃ d : Double, d.toRat = 1 / 2 ^ 30 ∧ formatDouble (some d) = "0.0".toList ∧
      ¬ Nearest (denoted (formatDouble (some d))) d := by
  have value : small.toRat = 1 / 2 ^ 30 := by
    have whole : unit = small.units * 2 ^ 30 := by decide +kernel
    have some : (small.units : ℚ) ≠ 0 := Nat.cast_ne_zero.mpr (by decide +kernel)
    have sign : small.negative = false := rfl
    rw [Double.toRat, whole, sign, if_neg (by decide)]
    push_cast
    field_simp
    norm_num
  refine ⟨small, value, formatDouble_small, ?_⟩
  rw [formatDouble_small, denoted_none]
  intro nearest
  have zero := nearest.zero
  rw [value] at zero
  norm_num at zero

end DuckdbOdata.DoubleTexts
