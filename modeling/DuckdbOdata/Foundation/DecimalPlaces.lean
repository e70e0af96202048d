import DuckdbOdata.Foundation.Binary64
import Mathlib.Data.Nat.Prime.Basic
import Mathlib.Tactic.NormNum.Prime
import Mathlib.Tactic.Ring

/-! Printing a binary64 number with six decimal places and rounding it back. If
any decimal with six places rounds to a number, the printed one does. -/

namespace Binary64

/-- The rounded quotient is at most half a step away. -/
theorem roundHalfEven_near (numerator : Nat) {denominator : Nat} (positive : 0 < denominator) :
    2 * numerator ≤ 2 * (roundHalfEven numerator denominator * denominator) + denominator ∧
      2 * (roundHalfEven numerator denominator * denominator) ≤ 2 * numerator + denominator := by
  have whole := Nat.div_add_mod numerator denominator
  have below := Nat.mod_lt numerator positive
  rw [Nat.mul_comm] at whole
  simp only [roundHalfEven]
  split
  · omega
  · split
    · rw [Nat.add_mul]
      omega
    · split
      · omega
      · rw [Nat.add_mul]
        omega

/-- The only number less than half a step away is the rounded quotient. -/
theorem roundHalfEven_unique {numerator denominator n : Nat} (above : 2 * numerator < 2 * (n * denominator) + denominator)
    (below : 2 * (n * denominator) < 2 * numerator + denominator) : roundHalfEven numerator denominator = n := by
  have positive : 0 < denominator := by omega
  obtain ⟨upper, lower⟩ := roundHalfEven_near numerator positive
  rcases Nat.lt_trichotomy (roundHalfEven numerator denominator) n with less | same | more
  · have step := Nat.mul_le_mul_right denominator (Nat.succ_le_of_lt less)
    rw [Nat.succ_mul] at step
    omega
  · exact same
  · have step := Nat.mul_le_mul_right denominator (Nat.succ_le_of_lt more)
    rw [Nat.succ_mul] at step
    omega

theorem roundHalfEven_mul (n : Nat) {denominator : Nat} (positive : 0 < denominator) :
    roundHalfEven (n * denominator) denominator = n :=
  roundHalfEven_unique (by omega) (by omega)

theorem scale_small {units : Nat} (small : units < 2 ^ 53) : scale units = 0 := by
  have log := Nat.log_lt_of_lt_pow' (b := 2) (by decide : 53 ≠ 0) small
  unfold scale
  omega

theorem scale_eq {units shift : Nat} (lower : 2 ^ 52 * 2 ^ shift ≤ units) (upper : units < 2 ^ 53 * 2 ^ shift) :
    scale units = shift := by
  rw [← Nat.pow_add] at lower upper
  have log : Nat.log 2 units = 52 + shift := by
    refine Nat.log_eq_of_pow_le_of_lt_pow lower ?_
    rwa [show 52 + shift + 1 = 53 + shift by omega]
  rw [scale, log, Nat.add_sub_cancel_left]

/-- The nearest number is at most half its step away. -/
theorem rounded_near (numerator : Nat) {denominator significand shift : Nat} (positive : 0 < denominator)
    (done : rounded numerator denominator = (significand, shift)) :
    2 * numerator ≤ 2 * (significand * (denominator * 2 ^ shift)) + denominator * 2 ^ shift ∧
      2 * (significand * (denominator * 2 ^ shift)) ≤ 2 * numerator + denominator * 2 ^ shift := by
  have near := roundHalfEven_near numerator (Nat.mul_pos positive (Nat.two_pow_pos (scale (numerator / denominator))))
  simp only [rounded, carry] at done
  split at done
  next full =>
    cases done
    rw [full] at near
    generalize scale (numerator / denominator) = shift at near
    have twice : denominator * 2 ^ (shift + 1) = 2 * (denominator * 2 ^ shift) := by
      rw [Nat.pow_succ]
      ring
    rw [twice]
    omega
  next =>
    cases done
    exact near

/-- A number that is less than half its step away is the nearest one, if the
step below it is as long. -/
theorem rounded_unique {numerator denominator significand shift : Nat}
    (grid : significand < 2 ^ 53 ∧ (shift = 0 ∨ 2 ^ 52 ≤ significand))
    (above : 2 * numerator < 2 * (significand * (denominator * 2 ^ shift)) + denominator * 2 ^ shift)
    (below : 2 * (significand * (denominator * 2 ^ shift)) < 2 * numerator + denominator * 2 ^ shift)
    (even : significand * (denominator * 2 ^ shift) ≤ numerator ∨ significand ≠ 2 ^ 52 ∨ shift = 0) :
    rounded numerator denominator = (significand, shift) := by
  have positive : 0 < denominator := by
    rcases Nat.eq_zero_or_pos denominator with rfl | positive
    · simp at above below
    · exact positive
  have shifted : scale (numerator / denominator) = shift := by
    have product : ∀ n, n * (denominator * 2 ^ shift) = n * 2 ^ shift * denominator := fun n => by ring
    have upper : numerator < 2 ^ 53 * 2 ^ shift * denominator := by
      have step := Nat.mul_le_mul_right (denominator * 2 ^ shift) (Nat.succ_le_of_lt grid.1)
      rw [Nat.succ_mul] at step
      rw [← product]
      omega
    have under := (Nat.div_lt_iff_lt_mul positive).mpr upper
    rcases grid.2 with rfl | large
    · exact scale_small (by simpa using under)
    rcases Nat.eq_zero_or_pos shift with rfl | shifts
    · exact scale_small (by simpa using under)
    refine scale_eq ?_ under
    rw [Nat.le_div_iff_mul_le positive, ← product]
    rcases even with more | other | none
    · exact (Nat.mul_le_mul_right _ large).trans more
    · have step := Nat.mul_le_mul_right (denominator * 2 ^ shift) (Nat.succ_le_of_lt (lt_of_le_of_ne large other.symm))
      rw [Nat.succ_mul] at step
      omega
    · omega
  simp only [rounded, shifted, roundHalfEven_unique above below, carry, if_neg grid.1.ne]

theorem ofRatio_some {negative : Bool} {numerator denominator : Nat} {d : Double} :
    ofRatio negative numerator denominator = some d ↔
      d.negative = negative ∧ rounded (numerator * unit) denominator = (d.significand, d.shift) := by
  obtain ⟨sign, significand, shift, bounded⟩ := d
  constructor
  · intro done
    by_cases bound : (rounded (numerator * unit) denominator).2 ≤ 2045
    · rw [ofRatio, dif_pos bound] at done
      simp only [Option.some.injEq, Double.mk.injEq] at done
      exact ⟨done.1.symm, Prod.ext done.2.1 done.2.2⟩
    · rw [ofRatio, dif_neg bound] at done
      cases done
  · rintro ⟨same, grid⟩
    have bound : (rounded (numerator * unit) denominator).2 ≤ 2045 := by
      rw [grid]
      exact bounded.2.1
    rw [ofRatio, dif_pos bound]
    simp only [Option.some.injEq, Double.mk.injEq]
    exact ⟨same.symm, congrArg Prod.fst grid, congrArg Prod.snd grid⟩

theorem unit_pos : 0 < unit := by
  unfold unit
  exact pow_pos (by decide) _

private theorem five_power (n : Nat) : ¬ 5 ∣ 2 ^ n := fun divides =>
  absurd (Nat.Prime.dvd_of_dvd_pow Nat.prime_five divides) (by decide)

private theorem unit_step {shift : Nat} (fine : unit ≤ 10 ^ 6 * 2 ^ shift) : unit < 10 ^ 6 * 2 ^ shift := by
  refine lt_of_le_of_ne fine fun same => ?_
  have five : 5 ∣ unit := by
    rw [same]
    exact ⟨2 * 10 ^ 5 * 2 ^ shift, by ring⟩
  unfold unit at five
  exact five_power _ five

private theorem unit_dvd {shift : Nat} (fine : unit ≤ 10 ^ 6 * 2 ^ shift) : unit ∣ 2 ^ 52 * (10 ^ 6 * 2 ^ shift) := by
  have below : unit < 2 ^ (20 + shift) := by
    calc unit ≤ 10 ^ 6 * 2 ^ shift := fine
      _ < 2 ^ 20 * 2 ^ shift := Nat.mul_lt_mul_of_pos_right (by decide) (Nat.two_pow_pos shift)
      _ = 2 ^ (20 + shift) := (Nat.pow_add 2 20 shift).symm
  unfold unit at below
  have few : 1074 ≤ 52 + shift := by
    have large := (Nat.pow_lt_pow_iff_right Nat.one_lt_two).mp below
    exact (by omega : ∀ power, power < 20 + shift → power ≤ 52 + shift) _ large
  have power : unit ∣ 2 ^ 52 * 2 ^ shift := by
    rw [← Nat.pow_add, unit]
    exact pow_dvd_pow 2 few
  exact power.trans ⟨10 ^ 6, by ring⟩

/-- If the steps of `d` are no shorter than a millionth, the nearest count of
millionths is less than half a step away, and not below a least significand. -/
theorem places_close {d : Double} (fine : unit ≤ 10 ^ 6 * 2 ^ d.shift) :
    2 * (roundHalfEven (d.units * 10 ^ 6) unit * unit) < 2 * (d.units * 10 ^ 6) + 10 ^ 6 * 2 ^ d.shift ∧
      2 * (d.units * 10 ^ 6) < 2 * (roundHalfEven (d.units * 10 ^ 6) unit * unit) + 10 ^ 6 * 2 ^ d.shift ∧
      (d.units * 10 ^ 6 ≤ roundHalfEven (d.units * 10 ^ 6) unit * unit ∨ d.significand ≠ 2 ^ 52) := by
  obtain ⟨above, below⟩ := roundHalfEven_near (d.units * 10 ^ 6) unit_pos
  have strict := unit_step fine
  refine ⟨by omega, by omega, ?_⟩
  by_cases least : d.significand = 2 ^ 52
  · refine .inl (le_of_eq ?_)
    obtain ⟨count, whole⟩ := unit_dvd fine
    have units : d.units * 10 ^ 6 = count * unit := by
      rw [Nat.mul_comm count, ← whole, Double.units, least]
      ring
    rw [units, roundHalfEven_mul count unit_pos]
  · exact .inr least

/-- If another count of millionths than the nearest one is less than half a step
away, the steps are no shorter than a millionth. -/
theorem places_fine {d : Double} {millionths : Nat} (other : roundHalfEven (d.units * 10 ^ 6) unit ≠ millionths)
    (above : 2 * (millionths * unit) ≤ 2 * (d.units * 10 ^ 6) + 10 ^ 6 * 2 ^ d.shift)
    (below : 2 * (d.units * 10 ^ 6) ≤ 2 * (millionths * unit) + 10 ^ 6 * 2 ^ d.shift) : unit ≤ 10 ^ 6 * 2 ^ d.shift := by
  obtain ⟨upper, lower⟩ := roundHalfEven_near (d.units * 10 ^ 6) unit_pos
  rcases Nat.lt_or_gt_of_ne other with less | more
  · have step := Nat.mul_le_mul_right unit (Nat.succ_le_of_lt less)
    rw [Nat.succ_mul] at step
    omega
  · have step := Nat.mul_le_mul_right unit (Nat.succ_le_of_lt more)
    rw [Nat.succ_mul] at step
    omega

/-- If a count of millionths rounds to `d`, the count nearest to `d` does. -/
theorem ofRatio_places {d : Double} {millionths : Nat} (rounds : ofRatio d.negative millionths (10 ^ 6) = some d) :
    ofRatio d.negative (roundHalfEven (d.units * 10 ^ 6) unit) (10 ^ 6) = some d := by
  obtain ⟨-, grid⟩ := ofRatio_some.mp rounds
  obtain ⟨upper, lower⟩ := rounded_near _ (by decide : 0 < 10 ^ 6) grid
  have units : d.significand * (10 ^ 6 * 2 ^ d.shift) = d.units * 10 ^ 6 := by
    rw [Double.units]
    ring
  rw [units] at upper lower
  by_cases same : roundHalfEven (d.units * 10 ^ 6) unit = millionths
  · rw [same]
    exact rounds
  obtain ⟨above, below, even⟩ := places_close (places_fine same upper lower)
  refine ofRatio_some.mpr ⟨rfl, rounded_unique ⟨d.bounded.1, d.bounded.2.2⟩ (by omega) (by omega) ?_⟩
  rw [units]
  exact even.imp_right .inl

end Binary64
