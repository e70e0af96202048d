import Mathlib.Data.List.Basic
import Mathlib.Data.List.Infix

/-! Occurrences and cut-outs in lists, counted from zero or from one. Where the two
ways of counting agree is said exactly. -/

namespace Substrings

variable {α : Type}

/-- The first position at which `part` occurs. -/
def firstAt [DecidableEq α] (text part : List α) : Option Nat := text.tails.findIdx? fun suffix => part.isPrefixOf suffix

/-- What follows the first occurrence's position begins with the part. -/
theorem firstAt_prefix [DecidableEq α] {text part : List α} {position : Nat} (found : firstAt text part = some position) :
    part <+: text.drop position := by
  obtain ⟨bound, starts, -⟩ := List.findIdx?_eq_some_iff_getElem.mp found
  rw [List.getElem_tails] at starts
  exact List.isPrefixOf_iff_prefix.mp starts

variable {text : List α} {start size : Nat}

/-- Counting from one too early makes no difference exactly at the start or past
the end. -/
theorem drop_pred : text.drop (start - 1) = text.drop start ↔ start = 0 ∨ text.length < start := by
  constructor
  · intro same
    have lengths := congrArg List.length same
    simp only [List.length_drop] at lengths
    omega
  · rintro (rfl | past)
    · rfl
    · rw [List.drop_eq_nil_iff.mpr (by omega), List.drop_eq_nil_iff.mpr past.le]

/-- One element less is cut out, unless the whole is cut out either way. -/
theorem take_pred : text.take (size - 1) = text.take size ↔ size = 0 ∨ text.length < size := by
  constructor
  · intro same
    have lengths := congrArg List.length same
    simp only [List.length_take] at lengths
    omega
  · rintro (rfl | past)
    · rfl
    · rw [List.take_of_length_le (by omega), List.take_of_length_le past.le]

/-- The cut-outs from two neighbouring positions are one only in a run of equal
elements. -/
theorem take_tail (first : α) (rest : List α) :
    (first :: rest).take size = rest.take size ↔ size = 0 ∨ (first :: rest).take (size + 1) = List.replicate (size + 1) first := by
  induction size generalizing first rest with
  | zero => simp
  | succ size ih =>
    cases rest with
    | nil => simp [List.replicate_succ]
    | cons second rest =>
      have inner := ih second rest
      have head : (second :: rest).take (size + 1) = List.replicate (size + 1) first → second = first := by
        intro same
        rw [List.take_succ_cons, List.replicate_succ] at same
        exact (List.cons.inj same).1
      have outer : (first :: second :: rest).take (size + 1 + 1) = List.replicate (size + 1 + 1) first ↔
          (second :: rest).take (size + 1) = List.replicate (size + 1) first := by
        rw [List.take_succ_cons, List.replicate_succ, List.cons.injEq]
        exact and_iff_right rfl
      rw [List.take_succ_cons, List.take_succ_cons, List.cons.injEq, inner, outer]
      constructor
      · rintro ⟨rfl, rfl | same⟩
        · exact .inr rfl
        · exact .inr same
      · rintro (none | same)
        · cases none
        · obtain rfl := head same
          exact ⟨rfl, .inr same⟩

end Substrings
