import Mathlib.Data.List.Basic
import Mathlib.Data.List.TakeWhile

/-! Lists without the items at both ends that satisfy a test. -/

namespace Trimming

variable {α : Type} {p : α → Bool}

def trimBy (p : α → Bool) (items : List α) : List α := ((items.dropWhile p).reverse.dropWhile p).reverse

/-- Neither the first nor the last item satisfies the test. -/
structure Solid (p : α → Bool) (items : List α) : Prop where
  first : ∀ x, items.head? = some x → p x = false
  last : ∀ x, items.getLast? = some x → p x = false

theorem Solid.mono {q : α → Bool} {items : List α} (wider : ∀ x, q x = true → p x = true) (solid : Solid p items) : Solid q items := by
  have narrow : ∀ x, p x = false → q x = false := by
    intro x other
    by_contra accepted
    rw [wider x (Bool.of_not_eq_false accepted)] at other
    cases other
  exact ⟨fun x head => narrow x (solid.first x head), fun x last => narrow x (solid.last x last)⟩

private theorem dropWhile_first {items : List α} (first : ∀ x, items.head? = some x → p x = false) : items.dropWhile p = items := by
  cases items with
  | nil => rfl
  | cons x rest => exact List.dropWhile_cons_of_neg (by rw [first x rfl]; exact Bool.false_ne_true)

private theorem dropWhile_head {items : List α} {x : α} (first : (items.dropWhile p).head? = some x) : p x = false := by
  have stops := List.head?_dropWhile_not p items
  rw [first] at stops
  exact stops

theorem Solid.trimBy_eq {items : List α} (solid : Solid p items) : trimBy p items = items := by
  have last : ∀ x, items.reverse.head? = some x → p x = false := by
    rw [List.head?_reverse]
    exact solid.last
  rw [trimBy, dropWhile_first solid.first, dropWhile_first last, List.reverse_reverse]

theorem solid_trimBy (items : List α) : Solid p (trimBy p items) := by
  unfold trimBy
  generalize body : items.dropWhile p = rest
  constructor
  · intro x first
    apply @dropWhile_head α p items
    rw [body]
    obtain ⟨dropped, same⟩ := @List.dropWhile_suffix α rest.reverse p
    have split := congrArg List.reverse same
    rw [List.reverse_append, List.reverse_reverse] at split
    rw [← split, List.head?_append, first]
    rfl
  · intro x last
    rw [List.getLast?_reverse] at last
    exact dropWhile_head last

theorem trimBy_trimBy (items : List α) : trimBy p (trimBy p items) = trimBy p items := (solid_trimBy items).trimBy_eq

/-- What is put around a list without such items at its ends is trimmed off. -/
theorem Solid.trimBy_around {before items after : List α} (front : before.all p = true) (back : after.all p = true)
    (solid : Solid p items) (some : items ≠ []) : trimBy p (before ++ items ++ after) = items := by
  have first : ∀ x, (items ++ after).head? = .some x → p x = false := by
    intro x head
    rw [List.head?_append_of_ne_nil _ some] at head
    exact solid.first x head
  have last : ∀ x, items.reverse.head? = .some x → p x = false := by
    rw [List.head?_reverse]
    exact solid.last
  rw [trimBy, List.append_assoc, List.dropWhile_append_of_pos (List.all_eq_true.mp front), dropWhile_first first, List.reverse_append,
    List.dropWhile_append_of_pos (List.all_eq_true.mp (List.all_reverse.trans back)), dropWhile_first last, List.reverse_reverse]

section
variable [BEq α] [LawfulBEq α]

private theorem dropWhile_count {x : α} (kept : p x = false) (items : List α) : (items.dropWhile p).count x = items.count x := by
  have none : (items.takeWhile p).count x = 0 := by
    apply List.count_eq_zero.mpr
    intro member
    rw [List.mem_takeWhile_imp member] at kept
    cases kept
  calc (items.dropWhile p).count x = (items.takeWhile p).count x + (items.dropWhile p).count x := by rw [none, Nat.zero_add]
    _ = items.count x := by rw [← List.count_append, List.takeWhile_append_dropWhile]

/-- Other items are not trimmed off. -/
theorem trimBy_count {x : α} (kept : p x = false) (items : List α) : (trimBy p items).count x = items.count x := by
  rw [trimBy, List.count_reverse, dropWhile_count kept, List.count_reverse, dropWhile_count kept]

theorem mem_trimBy {x : α} {items : List α} (kept : p x = false) (member : x ∈ items) : x ∈ trimBy p items := by
  rw [← List.count_pos_iff, trimBy_count kept]
  exact List.count_pos_iff.mpr member

end

theorem trimBy_length (items : List α) : (trimBy p items).length ≤ items.length := by
  rw [trimBy, List.length_reverse]
  apply (List.length_dropWhile_le _ _).trans
  rw [List.length_reverse]
  exact List.length_dropWhile_le _ _

end Trimming
