import Mathlib.Data.List.Basic

/-! Lists that are served in pages, each with the place of the next one, and the
client that follows the places until there is none. -/

namespace Listings

structure Page (Place Item : Type) where
  items : List Item
  next : Option Place

variable {Item : Type}

/-- The items that a page of the given size has from an index on. -/
def window (size start : Nat) (items : List Item) : List Item := (items.drop start).take size

theorem window_length (size start : Nat) (items : List Item) : (window size start items).length = min size (items.length - start) := by
  unfold window
  rw [List.length_take, List.length_drop]

theorem window_map {Other : Type} (f : Item → Other) (size start : Nat) (items : List Item) :
    (window size start items).map f = window size start (items.map f) := by
  unfold window
  rw [List.map_take, List.map_drop]

theorem window_append (size start : Nat) (items : List Item) :
    window size start items ++ items.drop (start + size) = items.drop start := by
  unfold window
  rw [← List.drop_drop]
  exact List.take_append_drop size _

theorem window_all {size start : Nat} {items : List Item} (short : items.length ≤ start + size) :
    window size start items = items.drop start := by
  apply List.take_of_length_le
  rw [List.length_drop]
  omega

section
variable {Place : Type} (fetch : Place → Option (Page Place Item))

/-- The pages received from a place on; the last one leads nowhere. -/
inductive Listing : Place → List (List Item) → Prop
  | last {place items} : fetch place = some ⟨items, none⟩ → Listing place [items]
  | linked {place items next pages} : fetch place = some ⟨items, some next⟩ → Listing next pages → Listing place (items :: pages)

/-- The listing ends, and its pages together are the items. -/
def Lists (place : Place) (items : List Item) : Prop := ∃ pages, Listing fetch place pages ∧ pages.flatten = items

variable {fetch} {place : Place} {items : List Item}

theorem Listing.unique {pages others : List (List Item)} (one : Listing fetch place pages) (other : Listing fetch place others) :
    pages = others := by
  induction one generalizing others with
  | last served =>
    cases other with
    | last again =>
      cases served.symm.trans again
      rfl
    | linked again => cases served.symm.trans again
  | linked served _ ih =>
    cases other with
    | last again => cases served.symm.trans again
    | linked again rest =>
      cases served.symm.trans again
      rw [ih rest]

theorem Lists.last (served : fetch place = some ⟨items, none⟩) : Lists fetch place items := by
  refine ⟨[items], .last served, ?_⟩
  rw [List.flatten_singleton]

theorem Lists.linked {first : List Item} {next : Place} (served : fetch place = some ⟨first, some next⟩)
    (rest : Lists fetch next items) : Lists fetch place (first ++ items) := by
  obtain ⟨pages, listing, rfl⟩ := rest
  exact ⟨first :: pages, .linked served listing, List.flatten_cons⟩

/-- A page that leads nowhere is all there is. -/
theorem Lists.eq_of_last {first : List Item} (lists : Lists fetch place items) (served : fetch place = some ⟨first, none⟩) :
    items = first := by
  obtain ⟨pages, listing, rfl⟩ := lists
  rw [listing.unique (.last served), List.flatten_singleton]

/-- If each place serves a full window and leads to the next one, or serves what is
left and leads nowhere, then every item is listed once, in order. -/
theorem Lists.of_windows {size : Nat} {serves : Nat → Place → Prop} (positive : 0 < size)
    (step : ∀ start place, serves start place →
      (items.length ≤ start + size ∧ fetch place = some ⟨window size start items, none⟩) ∨
        (start + size < items.length ∧ ∃ next, fetch place = some ⟨window size start items, some next⟩ ∧ serves (start + size) next))
    {start : Nat} (begins : serves start place) : Lists fetch place (items.drop start) := by
  -- the induction is on the items that are left
  induction left : items.length - start using Nat.strongRecOn generalizing start place with
  | ind left' ih =>
    rcases step start place begins with ⟨short, served⟩ | ⟨more, next, served, follows⟩
    · rw [← window_all short]
      exact .last served
    · rw [← window_append size start items]
      apply Lists.linked served
      exact ih (items.length - (start + size)) (by omega) follows rfl

end

end Listings
