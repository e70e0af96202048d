import Mathlib.Data.List.TakeWhile

/-! Scanners that look at one item after what they take. Such a scanner takes the
same from another text, as long as what follows begins alike, begins with a
separator or is empty. -/

namespace Lookahead
variable {α β γ : Type}

/-- What may stand after a scan in the place of `after`. -/
def Alike (separator : α → Prop) (after other : List α) : Prop :=
  other.head? = after.head? ∨ ∀ item ∈ other.head?, separator item

variable {separator : α → Prop}

theorem Alike.refl (after : List α) : Alike separator after after := .inl rfl

theorem Alike.separated {after : List α} {item : α} {rest : List α} (separates : separator item) :
    Alike separator after (item :: rest) :=
  .inr fun _ head => Option.some.inj head ▸ separates

theorem Alike.append {after other : List α} (alike : Alike separator after other) (front : List α) :
    Alike separator (front ++ after) (front ++ other) := by
  cases front with
  | nil => exact alike
  | cons item front => exact .inl rfl

/-- A scan yields a value and what is left of the text. -/
structure Local (separator : α → Prop) (scan : List α → β × List α) : Prop where
  suffix : ∀ input, (scan input).2 <:+ input
  same : ∀ input rest {after other value}, Alike separator after other → scan (input ++ after) = (value, rest ++ after) →
    scan (input ++ other) = (value, rest ++ other)

theorem Local.pure (value : β) : Local separator fun input : List α => (value, input) where
  suffix := List.suffix_refl
  same := by
    intro input rest after other value _ scanned
    obtain ⟨rfl, left⟩ := Prod.mk.inj scanned
    rw [List.append_cancel_right left]

theorem Local.bind {first : List α → β × List α} {next : β → List α → γ × List α} (one : Local separator first)
    (more : ∀ value, Local separator (next value)) :
    Local separator fun input => next (first input).1 (first input).2 where
  suffix := fun input => ((more _).suffix _).trans (one.suffix input)
  same := by
    intro input rest after other value alike scanned
    -- What the first scan leaves ends with `after` too, for the second one leaves an end of it.
    obtain ⟨taken, left⟩ := (more (first (input ++ after)).1).suffix (first (input ++ after)).2
    rw [scanned] at left
    have begun : first (input ++ after) = ((first (input ++ after)).1, taken ++ rest ++ after) := by
      rw [List.append_assoc, left]
    have swapped := one.same input (taken ++ rest) alike begun
    rw [swapped]
    rw [← left, ← List.append_assoc] at scanned
    exact (more _).same (taken ++ rest) rest alike scanned

theorem Local.map {scan : List α → β × List α} (one : Local separator scan) (f : β → γ) :
    Local separator fun input => (f (scan input).1, (scan input).2) :=
  one.bind fun value => .pure (f value)

/-- Of two scanners the one that a value chooses. -/
theorem Local.ite {choice : Prop} [Decidable choice] {first last : List α → β × List α} (one : Local separator first)
    (other : Local separator last) : Local separator fun input => if choice then first input else last input := by
  by_cases chosen : choice
  · simpa only [chosen, if_true] using one
  · simpa only [chosen, if_false] using other

/-- A run of accepted items ends before an item that is not. -/
theorem span_stops {accept : α → Bool} {taken rest : List α} (all : ∀ item ∈ taken, accept item = true)
    (stop : ∀ item ∈ rest.head?, accept item = false) :
    (taken ++ rest).takeWhile accept = taken ∧ (taken ++ rest).dropWhile accept = rest := by
  rw [List.takeWhile_append_of_pos all, List.dropWhile_append_of_pos all]
  cases rest with
  | nil => simp
  | cons item rest =>
    have refused := stop item rfl
    rw [List.takeWhile_cons_of_neg (by simp [refused]), List.dropWhile_cons_of_neg (by simp [refused]), List.append_nil]
    exact ⟨rfl, rfl⟩

/-- The longest run of accepted items. -/
theorem Local.takeWhile {accept : α → Bool} (ends : ∀ item, separator item → accept item = false) :
    Local separator fun input => (input.takeWhile accept, input.dropWhile accept) where
  suffix := fun input => List.dropWhile_suffix accept
  same := by
    intro input rest after other value alike scanned
    obtain ⟨rfl, left⟩ := Prod.mk.inj scanned
    have whole : (input ++ after).takeWhile accept ++ rest = input := by
      refine List.append_cancel_right (?_ : _ ++ after = _ ++ after)
      rw [List.append_assoc, ← left, List.takeWhile_append_dropWhile]
    have taken : ∀ item ∈ (input ++ after).takeWhile accept, accept item = true := fun _ member => List.mem_takeWhile_imp member
    have before : ∀ item ∈ (rest ++ after).head?, accept item = false := by
      intro item first
      have refused := List.head?_dropWhile_not accept (input ++ after)
      rw [left, Option.mem_def.mp first] at refused
      exact refused
    have stop : ∀ item ∈ (rest ++ other).head?, accept item = false := by
      intro item first
      rcases alike.append rest with same | separated
      · exact before item (same ▸ first)
      · exact ends item (separated item first)
    have stopped := span_stops taken stop
    rw [← List.append_assoc, whole] at stopped
    exact Prod.ext stopped.1 stopped.2

end Lookahead
