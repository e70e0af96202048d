import DuckdbOdata.Foundation.DecimalPlaces
import Mathlib.Algebra.Order.Ring.Abs
import Mathlib.Tactic.FieldSimp

/-! Which fractions are nearer to one binary64 number than to any other. If any
decimal with six places is, the printed one is. -/

namespace Binary64

/-- Every other number is further away. -/
def Nearest (value : ℚ) (d : Double) : Prop :=
  ∀ other : Double, other.toRat ≠ d.toRat → |value - d.toRat| < |value - other.toRat|

/-- A fraction with a sign. -/
def fraction (negative : Bool) (numerator denominator : Nat) : ℚ := (if negative then -1 else 1) * numerator / denominator

private theorem units_multiple {d other : Double} (coarse : d.shift ≤ other.shift) :
    ∃ count, other.units = count * 2 ^ d.shift := by
  refine ⟨other.significand * 2 ^ (other.shift - d.shift), ?_⟩
  rw [Double.units, Nat.mul_assoc, ← Nat.pow_add, Nat.sub_add_cancel coarse]

private theorem units_fine {d other : Double} (fine : other.shift < d.shift) : other.units < 2 ^ 52 * 2 ^ d.shift := by
  calc other.units < 2 ^ 53 * 2 ^ other.shift := Nat.mul_lt_mul_of_pos_right other.bounded.1 (Nat.two_pow_pos _)
    _ = 2 ^ 52 * 2 ^ (other.shift + 1) := by ring
    _ ≤ 2 ^ 52 * 2 ^ d.shift := Nat.mul_le_mul_left _ (Nat.pow_le_pow_right (by decide) fine)

/-- The next number above is a whole step away. -/
theorem units_above {d other : Double} (above : d.units < other.units) : d.units + 2 ^ d.shift ≤ other.units := by
  by_cases coarse : d.shift ≤ other.shift
  · obtain ⟨count, same⟩ := units_multiple coarse
    rw [same, Double.units] at above ⊢
    have more := Nat.lt_of_mul_lt_mul_right above
    calc d.significand * 2 ^ d.shift + 2 ^ d.shift = (d.significand + 1) * 2 ^ d.shift := (Nat.succ_mul _ _).symm
      _ ≤ count * 2 ^ d.shift := Nat.mul_le_mul_right _ more
  · have below := units_fine (Nat.lt_of_not_le coarse)
    have full : 2 ^ 52 ≤ d.significand := d.bounded.2.2.resolve_left (by omega)
    have least := Nat.mul_le_mul_right (2 ^ d.shift) full
    rw [Double.units] at above
    omega

/-- So is the next one below, unless the significand is the least one. -/
theorem units_below {d other : Double} (below : other.units < d.units) (plain : d.significand ≠ 2 ^ 52 ∨ d.shift = 0) :
    other.units + 2 ^ d.shift ≤ d.units := by
  by_cases coarse : d.shift ≤ other.shift
  · obtain ⟨count, same⟩ := units_multiple coarse
    rw [same, Double.units] at below ⊢
    have less := Nat.lt_of_mul_lt_mul_right below
    calc count * 2 ^ d.shift + 2 ^ d.shift = (count + 1) * 2 ^ d.shift := (Nat.succ_mul _ _).symm
      _ ≤ d.significand * 2 ^ d.shift := Nat.mul_le_mul_right _ less
  · have small := units_fine (Nat.lt_of_not_le coarse)
    have full : 2 ^ 52 ≤ d.significand := d.bounded.2.2.resolve_left (by omega)
    have next : 2 ^ 52 + 1 ≤ d.significand := by omega
    have step := Nat.mul_le_mul_right (2 ^ d.shift) next
    rw [Nat.succ_mul] at step
    have own : d.units = d.significand * 2 ^ d.shift := rfl
    omega

theorem toRat_fraction (d : Double) : d.toRat = fraction d.negative d.units unit := rfl

section
variable {negative : Bool} {numerator denominator units : Nat}

private theorem scale_pos (positive : 0 < denominator) : (0 : ℚ) < denominator * unit := by
  have units := unit_pos
  exact_mod_cast Nat.mul_pos positive units

private theorem sign_abs (negative : Bool) : |(if negative then -1 else 1 : ℚ)| = 1 := by
  cases negative with
  | false => exact abs_one
  | true => exact (abs_neg 1).trans abs_one

private theorem fraction_apart {other : Bool} {scale : Nat} (positive : 0 < denominator) (scaled : 0 < scale) :
    (fraction negative numerator denominator - fraction other units scale) * (denominator * scale) =
      (if negative then -1 else 1) * (numerator * scale) - (if other then -1 else 1) * (units * denominator) := by
  have own : (denominator : ℚ) ≠ 0 := by exact_mod_cast positive.ne'
  have whole : (scale : ℚ) ≠ 0 := by exact_mod_cast scaled.ne'
  unfold fraction
  field_simp

private theorem distance_same (positive : 0 < denominator) :
    |fraction negative numerator denominator - fraction negative units unit| * (denominator * unit) =
      |((numerator * unit : ℕ) : ℚ) - (units * denominator : ℕ)| := by
  have scaled : (fraction negative numerator denominator - fraction negative units unit) * (denominator * unit) =
      (if negative then -1 else 1) * (((numerator * unit : ℕ) : ℚ) - (units * denominator : ℕ)) := by
    rw [fraction_apart positive unit_pos, Nat.cast_mul, Nat.cast_mul, mul_sub]
  rw [← abs_of_pos (scale_pos positive), ← abs_mul, scaled, abs_mul, sign_abs, one_mul]

private theorem distance_other (positive : 0 < denominator) :
    |fraction negative numerator denominator - fraction (!negative) units unit| * (denominator * unit) =
      ((numerator * unit + units * denominator : ℕ) : ℚ) := by
  have opposite : (if (!negative) = true then -1 else 1 : ℚ) = -(if negative then -1 else 1) := by
    cases negative with
    | false => rfl
    | true => exact (neg_neg 1).symm
  have scaled : (fraction negative numerator denominator - fraction (!negative) units unit) * (denominator * unit) =
      (if negative then -1 else 1) * ((numerator * unit + units * denominator : ℕ) : ℚ) := by
    rw [fraction_apart positive unit_pos, opposite, neg_mul, sub_neg_eq_add, Nat.cast_add, Nat.cast_mul, Nat.cast_mul, mul_add]
  rw [← abs_of_pos (scale_pos positive), ← abs_mul, scaled, abs_mul, sign_abs, one_mul]
  exact abs_of_nonneg (Nat.cast_nonneg _)

end

private theorem closer_iff (place first last : Nat) :
    |(place : ℚ) - first| < |(place : ℚ) - last| ↔
      (first < last ∧ 2 * place < first + last) ∨ (last < first ∧ first + last < 2 * place) := by
  have cast : ∀ n : Nat, |(place : ℚ) - n| = ((|(place : ℤ) - n| : ℤ) : ℚ) := by
    intro n
    push_cast
    rfl
  rw [cast, cast, Int.cast_lt]
  rcases abs_cases ((place : ℤ) - first) with ⟨one, _⟩ | ⟨one, _⟩
  all_goals
    rcases abs_cases ((place : ℤ) - last) with ⟨other, _⟩ | ⟨other, _⟩
    all_goals
      rw [one, other]
      omega

section
variable {d : Double} {numerator denominator : Nat}

private theorem denominator_pos (above : 2 * (numerator * unit) < 2 * (d.units * denominator) + denominator * 2 ^ d.shift)
    (below : 2 * (d.units * denominator) < 2 * (numerator * unit) + denominator * 2 ^ d.shift) : 0 < denominator := by
  rcases Nat.eq_zero_or_pos denominator with rfl | positive
  · simp only [Nat.mul_zero, Nat.zero_mul] at above below
    omega
  · exact positive

private theorem toRat_zero {d : Double} (zero : d.units = 0) : d.toRat = 0 := by
  unfold Double.toRat
  rw [zero, Nat.cast_zero, mul_zero, zero_div]

private theorem significand_pos {d : Double} (some : 0 < d.units) : 0 < d.significand :=
  Nat.pos_of_mul_pos_right some

private theorem close_opposite {d other : Double} (differs : other.toRat ≠ d.toRat)
    (below : 2 * (d.units * denominator) < 2 * (numerator * unit) + denominator * 2 ^ d.shift) (positive : 0 < denominator) :
    |((numerator * unit : ℕ) : ℚ) - (d.units * denominator : ℕ)| < (numerator * unit + other.units * denominator : ℕ) := by
  generalize place : numerator * unit = y at below
  have bounds : d.units * denominator < y + (y + other.units * denominator) ∧
      0 < d.units * denominator + other.units * denominator := by
    rcases Nat.eq_zero_or_pos d.units with zero | some
    · have nonzero : 0 < other.units := Nat.pos_of_ne_zero fun both =>
        differs ((toRat_zero both).trans (toRat_zero zero).symm)
      have step := Nat.mul_pos nonzero positive
      rw [zero, Nat.zero_mul]
      omega
    · have least : denominator * 2 ^ d.shift ≤ d.units * denominator := by
        rw [Nat.mul_comm denominator]
        exact Nat.mul_le_mul_right denominator (Nat.le_mul_of_pos_left _ (significand_pos some))
      have nonzero := Nat.mul_pos some positive
      omega
  generalize d.units * denominator = u at bounds
  generalize other.units * denominator = o at bounds
  rw [abs_lt]
  have lower : (u : ℚ) < y + (y + o) := by exact_mod_cast bounds.1
  have upper : (0 : ℚ) < u + o := by exact_mod_cast bounds.2
  push_cast
  constructor
  · linarith only [lower]
  · linarith only [upper]

/-- A fraction less than half a step away from `d` is nearest to `d`, if the step
below is as long. -/
theorem nearest_of_close (above : 2 * (numerator * unit) < 2 * (d.units * denominator) + denominator * 2 ^ d.shift)
    (below : 2 * (d.units * denominator) < 2 * (numerator * unit) + denominator * 2 ^ d.shift)
    (even : d.units * denominator ≤ numerator * unit ∨ d.significand ≠ 2 ^ 52 ∨ d.shift = 0) :
    Nearest (fraction d.negative numerator denominator) d := by
  have positive := denominator_pos above below
  intro other differs
  rw [toRat_fraction d, toRat_fraction other, ← mul_lt_mul_iff_left₀ (scale_pos positive), distance_same positive]
  by_cases sign : other.negative = d.negative
  · rw [sign, distance_same positive, closer_iff]
    rcases Nat.lt_trichotomy d.units other.units with less | same | more
    · have step := Nat.mul_le_mul_right denominator (units_above less)
      rw [Nat.add_mul, Nat.mul_comm (2 ^ d.shift)] at step
      refine .inl ⟨Nat.mul_lt_mul_of_pos_right less positive, by omega⟩
    · refine absurd ?_ differs
      rw [toRat_fraction, toRat_fraction, sign, same]
    · refine .inr ⟨Nat.mul_lt_mul_of_pos_right more positive, ?_⟩
      rcases even with low | plain
      · have step := Nat.mul_lt_mul_of_pos_right more positive
        omega
      · have step := Nat.mul_le_mul_right denominator (units_below more plain)
        rw [Nat.add_mul, Nat.mul_comm (2 ^ d.shift)] at step
        omega
  · have flipped : other.negative = !d.negative := Bool.eq_not_of_ne sign
    rw [flipped, distance_other positive]
    exact close_opposite differs below positive

end

private theorem exists_above {d : Double} (small : d.shift < 2045) :
    ∃ other : Double, other.negative = d.negative ∧ other.units = d.units + 2 ^ d.shift := by
  have bounded := carry_bounded (d.significand + 1) d.shift d.bounded.1 (d.bounded.2.2.imp_right (by omega))
  refine ⟨⟨d.negative, _, _, bounded.1, ?_, bounded.2⟩, rfl, ?_⟩
  · unfold carry
    split
    · exact small
    · exact small.le
  · unfold Double.units carry
    dsimp only
    split
    next full =>
      rw [Nat.pow_succ, ← Nat.succ_mul, Nat.succ_eq_add_one, full]
      ring
    next => rw [Nat.add_mul, Nat.one_mul]

private theorem exists_below {d : Double} (some : 0 < d.units) :
    ∃ other : Double, other.negative = d.negative ∧ other.units < d.units ∧ d.units ≤ other.units + 2 ^ d.shift := by
  have one := significand_pos some
  have two := Nat.two_pow_pos d.shift
  by_cases plain : d.significand ≠ 2 ^ 52 ∨ d.shift = 0
  · refine ⟨⟨d.negative, d.significand - 1, d.shift, by have := d.bounded; omega⟩, rfl, ?_⟩
    have step : d.units = (d.significand - 1) * 2 ^ d.shift + 2 ^ d.shift := by
      rw [← Nat.succ_mul, Nat.succ_eq_add_one, Nat.sub_add_cancel one, Double.units]
    rw [step]
    unfold Double.units
    dsimp only
    omega
  · obtain ⟨least, finer⟩ := not_or.mp plain
    rw [not_not] at least
    have pow : 2 ^ d.shift = 2 * 2 ^ (d.shift - 1) := by
      rw [← Nat.pow_succ', Nat.succ_eq_add_one, Nat.sub_add_cancel (Nat.pos_of_ne_zero finer)]
    have step : d.units = 2 ^ 53 * 2 ^ (d.shift - 1) := by
      rw [Double.units, least, pow]
      ring
    refine ⟨⟨d.negative, 2 ^ 53 - 1, d.shift - 1, by have := d.bounded; omega⟩, rfl, ?_⟩
    have half := Nat.two_pow_pos (d.shift - 1)
    rw [step, pow]
    unfold Double.units
    dsimp only
    omega

private theorem toRat_apart {d other : Double} (sign : other.negative = d.negative) (differs : other.units ≠ d.units) :
    other.toRat ≠ d.toRat := by
  intro same
  have whole : (unit : ℚ) ≠ 0 := by exact_mod_cast unit_pos.ne'
  have signed : (if d.negative then -1 else 1 : ℚ) ≠ 0 := by
    rw [← abs_pos, sign_abs]
    exact one_pos
  unfold Double.toRat at same
  rw [sign, div_left_inj' whole, mul_right_inj' signed, Nat.cast_inj] at same
  exact differs same

private theorem nearest_side {d other : Double} {numerator denominator : Nat} (positive : 0 < denominator)
    (sign : other.negative = d.negative) (differs : other.units ≠ d.units)
    (nearest : Nearest (fraction d.negative numerator denominator) d) :
    (d.units * denominator < other.units * denominator ∧
        2 * (numerator * unit) < d.units * denominator + other.units * denominator) ∨
      (other.units * denominator < d.units * denominator ∧
        d.units * denominator + other.units * denominator < 2 * (numerator * unit)) := by
  have closer := nearest other (toRat_apart sign differs)
  rw [toRat_fraction d, toRat_fraction other, sign, ← mul_lt_mul_iff_left₀ (scale_pos positive), distance_same positive,
    distance_same positive, closer_iff] at closer
  exact closer

private theorem nearest_near {d : Double} {numerator denominator : Nat} (positive : 0 < denominator) (small : d.shift < 2045)
    (nearest : Nearest (fraction d.negative numerator denominator) d) :
    2 * (numerator * unit) ≤ 2 * (d.units * denominator) + denominator * 2 ^ d.shift ∧
      2 * (d.units * denominator) ≤ 2 * (numerator * unit) + denominator * 2 ^ d.shift := by
  have two := Nat.two_pow_pos d.shift
  constructor
  · obtain ⟨other, sign, units⟩ := exists_above small
    have side := nearest_side positive sign (by omega) nearest
    rw [units, Nat.add_mul, Nat.mul_comm (2 ^ d.shift)] at side
    omega
  · rcases Nat.eq_zero_or_pos d.units with zero | some
    · rw [zero, Nat.zero_mul]
      exact Nat.zero_le _
    · obtain ⟨other, sign, less, units⟩ := exists_below some
      have side := nearest_side positive sign less.ne nearest
      have step := Nat.mul_le_mul_right denominator units
      rw [Nat.add_mul, Nat.mul_comm (2 ^ d.shift)] at step
      have strict := Nat.mul_lt_mul_of_pos_right less positive
      omega

/-- If a count of millionths is nearest to `d`, the count nearest to `d` is. -/
theorem nearest_places {d : Double} {millionths : Nat} (nearest : Nearest (fraction d.negative millionths (10 ^ 6)) d) :
    Nearest (fraction d.negative (roundHalfEven (d.units * 10 ^ 6) unit) (10 ^ 6)) d := by
  by_cases same : roundHalfEven (d.units * 10 ^ 6) unit = millionths
  · rw [same]
    exact nearest
  have fine : unit ≤ 10 ^ 6 * 2 ^ d.shift := by
    by_cases coarse : 1074 ≤ d.shift
    · have step : unit ≤ 2 ^ d.shift := by
        unfold unit
        exact pow_le_pow_right₀ (by decide) coarse
      exact step.trans (Nat.le_mul_of_pos_left _ (by decide))
    · obtain ⟨above, below⟩ := nearest_near (by decide) (by omega) nearest
      exact places_fine same above below
  obtain ⟨above, below, even⟩ := places_close fine
  exact nearest_of_close above below (even.imp_right .inl)

private theorem nearest_zero {d : Double} (zero : d.toRat = 0) (denominator : Nat) :
    Nearest (fraction d.negative 0 denominator) d := by
  intro other differs
  have none : fraction d.negative 0 denominator = 0 := by
    rw [fraction, Nat.cast_zero, mul_zero, zero_div]
  rw [none, zero, sub_zero, abs_zero, zero_sub, abs_neg, abs_pos]
  rw [zero] at differs
  exact differs

theorem Double.zero_toRat : Double.zero.toRat = 0 := toRat_zero rfl

private theorem nearest_across {value : ℚ} {d : Double} (nearest : Nearest value d) (some : d.toRat ≠ 0) :
    ¬ (value ≤ 0 ∧ 0 ≤ d.toRat) ∧ ¬ (0 ≤ value ∧ d.toRat ≤ 0) := by
  have closer := nearest Double.zero (by rwa [Double.zero_toRat, ne_comm])
  rw [Double.zero_toRat, sub_zero] at closer
  constructor
  · intro ⟨below, above⟩
    rw [abs_of_nonpos below, abs_of_nonpos (by linarith)] at closer
    linarith
  · intro ⟨above, below⟩
    rw [abs_of_nonneg above, abs_of_nonneg (by linarith)] at closer
    linarith

/-- Zero is nearest to zero only. -/
theorem Nearest.zero {d : Double} (nearest : Nearest 0 d) : d.toRat = 0 := by
  by_contra some
  obtain ⟨below, above⟩ := nearest_across nearest some
  rcases le_total 0 d.toRat with positive | negative
  · exact below ⟨le_rfl, positive⟩
  · exact above ⟨le_rfl, negative⟩

private theorem toRat_sign (d : Double) : (d.negative = false → 0 ≤ d.toRat) ∧ (d.negative = true → d.toRat ≤ 0) := by
  have magnitude : (0 : ℚ) ≤ d.units / unit := div_nonneg (Nat.cast_nonneg _) (Nat.cast_nonneg _)
  unfold Double.toRat
  constructor
  · intro positive
    rwa [positive, if_neg (by decide), one_mul]
  · intro negative
    rw [negative, if_pos rfl, neg_one_mul, neg_div]
    exact neg_nonpos.mpr magnitude

/-- If any decimal with six places is nearest to `d`, the one nearest to `d` is. -/
theorem nearest_millionths {d : Double} {millionths : ℤ} (nearest : Nearest (millionths / 10 ^ 6) d) :
    Nearest (fraction d.negative (roundHalfEven (d.units * 10 ^ 6) unit) (10 ^ 6)) d := by
  by_cases zero : d.toRat = 0
  · exact nearest_places (nearest_zero zero (10 ^ 6))
  obtain ⟨below, above⟩ := nearest_across nearest zero
  obtain ⟨positive, negative⟩ := toRat_sign d
  have scale : (0 : ℚ) < 10 ^ 6 := by norm_num
  have signed : fraction d.negative millionths.natAbs (10 ^ 6) = millionths / 10 ^ 6 := by
    unfold fraction
    rw [Nat.cast_pow]
    cases sign : d.negative with
    | false =>
      have more : 0 ≤ millionths := by
        by_contra less
        refine below ⟨div_nonpos_of_nonpos_of_nonneg ?_ scale.le, positive sign⟩
        exact_mod_cast (Int.lt_of_not_ge less).le
      rw [if_neg (by decide), one_mul, Nat.cast_natAbs, abs_of_nonneg more]
      rfl
    | true =>
      have less : millionths ≤ 0 := by
        by_contra more
        refine above ⟨div_nonneg ?_ scale.le, negative sign⟩
        exact_mod_cast (Int.lt_of_not_ge more).le
      rw [if_pos rfl, neg_one_mul, Nat.cast_natAbs, abs_of_nonpos less, Int.cast_neg, neg_neg]
      rfl
  rw [← signed] at nearest
  exact nearest_places nearest

end Binary64
