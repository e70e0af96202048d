import Mathlib.Data.List.TakeWhile
import DuckdbOdata.Foundation.DecimalPlaces
import DuckdbOdata.Proofs.Lexemes

/-! Which numbers the numerals of a filter and of SQL denote, stated on their
texts alone, and what the library conversions make of these texts. -/

namespace DuckdbOdata.Numerals
open Text Binary64 Lexemes

def Digits (text : Str) : Prop := ∀ c ∈ text, c.isDigit = true

instance (text : Str) : Decidable (Digits text) := inferInstanceAs (Decidable (∀ c ∈ text, _))

def minus (negative : Bool) : Str := if negative then ['-'] else []

/-- A fraction part and its digits. -/
inductive Fraction : Str → Str → Prop
  | absent : Fraction [] []
  | point {digits} : Digits digits → Fraction ('.' :: digits) digits

/-- An exponent part and its value. A marker is followed by digits. -/
inductive Exponent : Str → Int → Prop
  | absent : Exponent [] 0
  | marked {marker : Char} {sign : Str} {negative : Bool} {digits : Str} : marker = 'e' ∨ marker = 'E' →
      (sign, negative) ∈ [("-".toList, true), ("+".toList, false), ([], false)] → digits ≠ [] → Digits digits →
      Exponent (marker :: (sign ++ digits)) (signed negative (Nat.ofDigitChars 10 digits 0))

/-- The whole text is an integer numeral. -/
inductive IntegerText : Str → Int → Prop
  | digits (negative : Bool) {digits : Str} : digits ≠ [] → Digits digits →
      IntegerText (minus negative ++ digits) (signed negative (Nat.ofDigitChars 10 digits 0))

/-- The whole text is a floating numeral, and the nearest number to it. -/
inductive DoubleText : Str → Double → Prop
  | rounds {negative : Bool} {whole point fraction power : Str} {exponent : Int} {value : Double} :
      whole ≠ [] → Digits whole → Fraction point fraction → Exponent power exponent → point ++ power ≠ [] →
      ofRatio negative (Decimal.ratio ⟨negative, whole ++ fraction, exponent - fraction.length⟩).1
        (Decimal.ratio ⟨negative, whole ++ fraction, exponent - fraction.length⟩).2 = some value →
      DoubleText (minus negative ++ (whole ++ (point ++ power))) value

private theorem takeSign_digit {c : Char} (digit : c.isDigit = true) (rest : Str) :
    takeSign (c :: rest) = (false, c :: rest) := by
  unfold takeSign
  split
  next same =>
    cases same
    simp at digit
  next same =>
    cases same
    simp at digit
  next => rfl

private theorem takeSign_minus (negative : Bool) {digits : Str} (present : digits ≠ []) (all : Digits digits) (rest : Str) :
    takeSign (minus negative ++ (digits ++ rest)) = (negative, digits ++ rest) := by
  cases negative with
  | true => rfl
  | false =>
    cases digits with
    | nil => exact absurd rfl present
    | cons c digits => exact takeSign_digit (all c List.mem_cons_self) _

/-- No digit follows. -/
def Stops (rest : Str) : Prop := ∀ c, rest.head? = some c → c.isDigit = false

theorem digits_split {digits rest : Str} (all : Digits digits) (stops : Stops rest) :
    takeDigits (digits ++ rest) = digits ∧ dropDigits (digits ++ rest) = rest := by
  unfold takeDigits dropDigits
  rw [List.takeWhile_append_of_pos all, List.dropWhile_append_of_pos all]
  cases rest with
  | nil => simp
  | cons c rest => simp [stops c rfl]

private theorem takeDigits_all {digits : Str} (all : Digits digits) : takeDigits digits = digits :=
  List.takeWhile_eq_self_iff.mpr all

private theorem Exponent.stops {power : Str} {exponent : Int} (reads : Exponent power exponent) :
    Stops power ∧ ∀ rest, power ≠ '.' :: rest := by
  cases reads with
  | absent => exact ⟨nofun, nofun⟩
  | marked marks =>
    rcases marks with rfl | rfl
    · exact ⟨fun c same => by cases same; rfl, fun _ same => absurd (List.cons.inj same).1 (by decide)⟩
    · exact ⟨fun c same => by cases same; rfl, fun _ same => absurd (List.cons.inj same).1 (by decide)⟩

private theorem takeExponent_power {power : Str} {exponent : Int} (reads : Exponent power exponent) :
    takeExponent power = exponent := by
  cases reads with
  | absent => rfl
  | @marked marker sign negative digits marks signs present all =>
    have read : takeSign (sign ++ digits) = (negative, digits) := by
      simp only [List.mem_cons, Prod.mk.injEq, List.not_mem_nil, or_false] at signs
      rcases signs with ⟨rfl, rfl⟩ | ⟨rfl, rfl⟩ | ⟨rfl, rfl⟩
      · rfl
      · rfl
      · simpa [minus] using takeSign_minus false present all []
    have whole := takeDigits_all all
    simp only [takeExponent, if_pos marks, read, whole]

private theorem takeFraction_point {point fraction power : Str} {exponent : Int} (reads : Fraction point fraction)
    (powers : Exponent power exponent) : takeFraction (point ++ power) = (fraction, power) ∧ Stops (point ++ power) := by
  obtain ⟨stops, other⟩ := powers.stops
  cases reads with
  | absent =>
    refine ⟨?_, stops⟩
    rw [List.nil_append]
    unfold takeFraction
    split
    next rest => exact absurd rfl (other rest)
    next => rfl
  | point all =>
    obtain ⟨taken, dropped⟩ := digits_split all stops
    refine ⟨?_, fun c same => by cases same; rfl⟩
    simp only [List.cons_append, takeFraction, taken, dropped]

theorem readDecimal_numeral {negative : Bool} {whole point fraction power : Str} {exponent : Int} (present : whole ≠ [])
    (all : Digits whole) (fractions : Fraction point fraction) (powers : Exponent power exponent) :
    readDecimal (minus negative ++ (whole ++ (point ++ power))) =
      ⟨negative, whole ++ fraction, exponent - fraction.length⟩ := by
  obtain ⟨read, stops⟩ := takeFraction_point fractions powers
  obtain ⟨taken, dropped⟩ := digits_split all stops
  simp only [readDecimal, takeSign_minus negative present all, taken, dropped, read, takeExponent_power powers]

/-- The conversion of a complete floating numeral is its number. -/
theorem DoubleText.stod {text : Str} {value converted : Double} (denotes : DoubleText text value)
    (done : DuckdbOdata.stod text = .ok converted) : converted = value := by
  cases denotes with
  | rounds present all fractions powers _ rounds =>
    simp only [DuckdbOdata.stod, readDecimal_numeral present all fractions powers, rounds] at done
    split at done
    · cases done
    · split at done
      · cases done
      · cases done
        rfl

private theorem scanNumber_whole {input text after : Str} (scanned : scanNumber input = (text, false, after)) :
    text = (takeOne (· == '-') input).1 ++ takeDigits (takeOne (· == '-') input).2 := by
  simp only [scanNumber] at scanned
  generalize takeOne (· == '-') input = first at scanned ⊢
  generalize takeOne (· == '.') (dropDigits first.2) = second at scanned
  simp only [Prod.mk.injEq, Bool.or_eq_false_iff, decide_eq_false_iff_not, ne_eq, not_not] at scanned
  obtain ⟨same, ⟨point, marker⟩, -⟩ := scanned
  rw [marker] at same
  simpa [point] using same.symm

theorem scanNumber_integer {c : Char} {rest text after : Str} (starts : startsNumber c rest)
    (scanned : scanNumber (c :: rest) = (text, false, after)) :
    ∃ negative digits, text = minus negative ++ digits ∧ digits ≠ [] ∧ Digits digits := by
  have digits : ∀ body, Digits (takeDigits body) := fun body d member => List.mem_takeWhile_imp member
  have whole := scanNumber_whole scanned
  simp only [startsNumber, Bool.or_eq_true, Bool.and_eq_true, beq_iff_eq] at starts
  rcases starts with digit | ⟨rfl, follows⟩
  · have other : c ≠ '-' := by
      rintro rfl
      simp at digit
    refine ⟨false, takeDigits (c :: rest), ?_, by simp [takeDigits, digit], digits _⟩
    simpa [takeOne, other, minus] using whole
  · refine ⟨true, takeDigits rest, by simpa [takeOne, minus] using whole, ?_, digits _⟩
    cases rest with
    | nil => simp at follows
    | cons d rest =>
      have digit : d.isDigit = true := by simpa using follows
      simp [takeDigits, digit]

/-- The conversion of an integer numeral is in range or fails. -/
theorem stoll_digits {negative : Bool} {digits : Str} (present : digits ≠ []) (all : Digits digits) :
    stoll (minus negative ++ digits) =
      asLongLong (signed negative (Nat.ofDigitChars 10 digits 0)) (minus negative ++ digits).length := by
  have unspaced : (minus negative ++ digits).dropWhile isSpace = minus negative ++ digits := by
    cases negative with
    | true => rfl
    | false =>
      cases digits with
      | nil => exact absurd rfl present
      | cons c digits =>
        have digit := all c List.mem_cons_self
        have plain : isSpace c = false := by
          unfold isSpace
          simp only [Bool.or_eq_false_iff, beq_eq_false_iff_ne]
          refine ⟨⟨⟨⟨⟨?_, ?_⟩, ?_⟩, ?_⟩, ?_⟩, ?_⟩ <;> (rintro rfl; exact absurd digit (by decide))
        simp [minus, plain]
  have sign := takeSign_minus negative present all []
  have stops : Stops [] := nofun
  obtain ⟨whole, rest⟩ := digits_split all stops
  rw [List.append_nil] at sign whole rest
  simp only [stoll, unspaced, sign, whole, rest, if_neg present]
  rfl

theorem stoll_integer {negative : Bool} {digits : Str} (present : digits ≠ []) (all : Digits digits) {value : Int}
    {used : Nat} (done : stoll (minus negative ++ digits) = .ok (value, used)) :
    value = signed negative (Nat.ofDigitChars 10 digits 0) := by
  rw [stoll_digits present all] at done
  unfold asLongLong at done
  split at done
  · cases done
    rfl
  · cases done

theorem signed_toDigits (value : Int) : signed (value < 0) (Nat.ofDigitChars 10 (Nat.toDigits 10 value.natAbs) 0) = value := by
  rw [Nat.ofDigitChars_ten_toDigits]
  simp only [signed, decide_eq_true_eq]
  split <;> omega

theorem padded_length {width n : Nat} (positive : 0 < width) (small : n < 10 ^ width) : (padded width n).length = width := by
  have short := (Nat.length_toDigits_le_iff (by decide) positive).mpr small
  simp only [padded, List.length_append, List.length_replicate]
  omega

theorem padded_value (width n : Nat) (init : Nat) (positive : 0 < width) (small : n < 10 ^ width) :
    Nat.ofDigitChars 10 (padded width n) init = init * 10 ^ width + n := by
  have length := padded_length positive small
  rw [Nat.ofDigitChars_eq_ofDigitChars_zero, length]
  simp only [padded, Nat.ofDigitChars_append, Nat.ofDigitChars_replicate_zero, Nat.mul_zero, Nat.ofDigitChars_ten_toDigits]
  ring

/-- The printed digits, read without their point, are the count of millionths. -/
theorem decimalText_value (millionths : Nat) :
    Nat.ofDigitChars 10 (Nat.toDigits 10 (millionths / 10 ^ 6) ++ padded 6 (millionths % 10 ^ 6)) 0 = millionths := by
  rw [Nat.ofDigitChars_append, Nat.ofDigitChars_ten_toDigits,
    padded_value 6 _ _ (by decide) (Nat.mod_lt _ (by decide))]
  exact Nat.div_add_mod' millionths (10 ^ 6)

end DuckdbOdata.Numerals
