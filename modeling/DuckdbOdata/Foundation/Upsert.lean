import Mathlib.Data.List.Nodup

/-! A keyed table kept as a list: a new item updates the first one that it hits,
or is appended. -/

/-- Updates the first item that is hit, or appends `fresh`. -/
def upsert {α : Type} (hit : α → Prop) [DecidablePred hit] (update : α → α) (fresh : α) : List α → List α
  | [] => [fresh]
  | item :: items => if hit item then update item :: items else item :: upsert hit update fresh items

namespace Upsert

variable {α κ : Type} {hit : α → Prop} [DecidablePred hit] {update : α → α} {fresh item : α} {items : List α}

theorem mem (member : item ∈ upsert hit update fresh items) :
    item ∈ items ∨ (∃ old ∈ items, hit old ∧ item = update old) ∨ item = fresh ∧ ∀ old ∈ items, ¬ hit old := by
  induction items with
  | nil => exact .inr (.inr ⟨List.mem_singleton.mp member, nofun⟩)
  | cons first items ih =>
    rw [upsert] at member
    split at member
    next found =>
      rcases List.mem_cons.mp member with rfl | member
      · exact .inr (.inl ⟨first, List.mem_cons_self, found, rfl⟩)
      · exact .inl (List.mem_cons_of_mem _ member)
    next missed =>
      rcases List.mem_cons.mp member with rfl | member
      · exact .inl List.mem_cons_self
      · rcases ih member with kept | ⟨old, inside, found⟩ | ⟨same, none⟩
        · exact .inl (List.mem_cons_of_mem _ kept)
        · exact .inr (.inl ⟨old, List.mem_cons_of_mem _ inside, found⟩)
        · exact .inr (.inr ⟨same, List.forall_mem_cons.mpr ⟨missed, none⟩⟩)

/-- An item stays, or is the one that is updated. -/
theorem kept (member : item ∈ items) :
    item ∈ upsert hit update fresh items ∨ hit item ∧ update item ∈ upsert hit update fresh items := by
  induction items with
  | nil => exact absurd member List.not_mem_nil
  | cons first items ih =>
    rw [upsert]
    split
    next found =>
      rcases List.mem_cons.mp member with rfl | member
      · exact .inr ⟨found, List.mem_cons_self⟩
      · exact .inl (List.mem_cons_of_mem _ member)
    next =>
      rcases List.mem_cons.mp member with rfl | member
      · exact .inl List.mem_cons_self
      · exact (ih member).imp (List.mem_cons_of_mem _) fun ⟨found, inside⟩ => ⟨found, List.mem_cons_of_mem _ inside⟩

/-- Something is written: an updated item or the fresh one. -/
theorem written (hit : α → Prop) [DecidablePred hit] (update : α → α) (fresh : α) (items : List α) :
    (∃ old ∈ items, hit old ∧ update old ∈ upsert hit update fresh items) ∨
      (∀ old ∈ items, ¬ hit old) ∧ fresh ∈ upsert hit update fresh items := by
  induction items with
  | nil => exact .inr ⟨nofun, List.mem_cons_self⟩
  | cons first items ih =>
    rw [upsert]
    split
    next found => exact .inl ⟨first, List.mem_cons_self, found, List.mem_cons_self⟩
    next missed =>
      rcases ih with ⟨old, inside, found, member⟩ | ⟨none, member⟩
      · exact .inl ⟨old, List.mem_cons_of_mem _ inside, found, List.mem_cons_of_mem _ member⟩
      · exact .inr ⟨List.forall_mem_cons.mpr ⟨missed, none⟩, List.mem_cons_of_mem _ member⟩

/-- Nothing is added to a table with an item that is hit. -/
theorem length_hit (found : ∃ old ∈ items, hit old) : (upsert hit update fresh items).length = items.length := by
  induction items with
  | nil => exact absurd found (by simp)
  | cons first items ih =>
    rw [upsert]
    split
    next => rfl
    next missed =>
      obtain ⟨old, member, here⟩ := found
      rcases List.mem_cons.mp member with rfl | member
      · exact absurd here missed
      · rw [List.length_cons, List.length_cons, ih ⟨old, member, here⟩]

theorem length_le (hit : α → Prop) [DecidablePred hit] (update : α → α) (fresh : α) (items : List α) :
    items.length ≤ (upsert hit update fresh items).length := by
  induction items with
  | nil => exact Nat.zero_le _
  | cons first items ih =>
    rw [upsert]
    split
    next => exact Nat.le_refl _
    next => exact Nat.succ_le_succ ih

/-- What stands at a position afterwards. -/
theorem getElem?_mem {i : Nat} (read : (upsert hit update fresh items)[i]? = some item) :
    items[i]? = some item ∨ (∃ old, items.find? (hit ·) = some old ∧ items[i]? = some old ∧ item = update old) ∨
      items.find? (hit ·) = none ∧ item = fresh := by
  induction items generalizing i with
  | nil =>
    refine .inr (.inr ⟨rfl, ?_⟩)
    exact (List.mem_singleton.mp (List.mem_of_getElem? read))
  | cons first items ih =>
    rw [upsert] at read
    split at read
    next found =>
      cases i with
      | zero => exact .inr (.inl ⟨first, List.find?_cons_of_pos (decide_eq_true found), rfl, (Option.some.inj read).symm⟩)
      | succ i => exact .inl read
    next missed =>
      have later : (first :: items).find? (hit ·) = items.find? (hit ·) :=
        List.find?_cons_of_neg fun found => missed (of_decide_eq_true found)
      rw [later]
      cases i with
      | zero => exact .inl read
      | succ i => exact ih read

/-- The first item that is hit is updated where it stands, else the fresh one
stands at the end. -/
theorem getElem?_find (hit : α → Prop) [DecidablePred hit] (update : α → α) (fresh : α) (items : List α) :
    (∃ (i : Nat) (old : α), items.find? (hit ·) = some old ∧ items[i]? = some old ∧ (upsert hit update fresh items)[i]? = some (update old)) ∨
      items.find? (hit ·) = none ∧ (upsert hit update fresh items)[items.length]? = some fresh := by
  induction items with
  | nil => exact .inr ⟨rfl, rfl⟩
  | cons first items ih =>
    rw [upsert]
    split
    next found => exact .inl ⟨0, first, List.find?_cons_of_pos (decide_eq_true found), rfl, rfl⟩
    next missed =>
      have later : (first :: items).find? (hit ·) = items.find? (hit ·) :=
        List.find?_cons_of_neg fun found => missed (of_decide_eq_true found)
      rw [later]
      rcases ih with ⟨i, old, found, here, written⟩ | ⟨none, written⟩
      · exact .inl ⟨i + 1, old, found, here, written⟩
      · exact .inr ⟨none, written⟩

/-- Two tests that agree on the items write the same. -/
theorem congr {test : α → Prop} [DecidablePred test] (agree : ∀ old ∈ items, hit old ↔ test old) :
    upsert hit update fresh items = upsert test update fresh items := by
  induction items with
  | nil => rfl
  | cons first items ih =>
    obtain ⟨here, later⟩ := List.forall_mem_cons.mp agree
    rw [upsert, upsert, ih later]
    exact if_congr here rfl rfl

variable {key : α → κ}

/-- A hit by key leaves the keys as they are; a miss adds one. -/
theorem keys (byKey : ∀ old, hit old ↔ key old = key fresh) (keeps : ∀ old, hit old → key (update old) = key fresh) :
    (upsert hit update fresh items).map key = items.map key ∨
      key fresh ∉ items.map key ∧ (upsert hit update fresh items).map key = items.map key ++ [key fresh] := by
  induction items with
  | nil => exact .inr ⟨List.not_mem_nil, rfl⟩
  | cons first items ih =>
    rw [upsert]
    split
    next found =>
      refine .inl ?_
      rw [List.map_cons, List.map_cons, keeps first found, (byKey first).mp found]
    next missed =>
      rcases ih with same | ⟨none, added⟩
      · exact .inl (by rw [List.map_cons, List.map_cons, same])
      · refine .inr ⟨?_, by rw [List.map_cons, List.map_cons, added, List.cons_append]⟩
        rw [List.map_cons, List.mem_cons, not_or]
        exact ⟨fun same => missed ((byKey first).mpr same.symm), none⟩

theorem distinct (byKey : ∀ old, hit old ↔ key old = key fresh) (keeps : ∀ old, hit old → key (update old) = key fresh)
    (unique : (items.map key).Nodup) : ((upsert hit update fresh items).map key).Nodup := by
  have written : (upsert hit update fresh items).map key = items.map key ∨
      key fresh ∉ items.map key ∧ (upsert hit update fresh items).map key = items.map key ++ [key fresh] := keys byKey keeps
  rcases written with same | ⟨none, added⟩
  · rwa [same]
  · rw [added, List.nodup_append]
    refine ⟨unique, List.nodup_singleton _, ?_⟩
    rintro name member _ last rfl
    exact none (List.mem_singleton.mp last ▸ member)

/-- With distinct keys only the updated item has the key of the fresh one. -/
theorem mem_key (key : α → κ) (byKey : ∀ old, hit old ↔ key old = key fresh) (unique : (items.map key).Nodup)
    (member : item ∈ upsert hit update fresh items) :
    item ∈ items ∧ ¬ hit item ∨ (∃ old ∈ items, hit old ∧ item = update old) ∨ item = fresh ∧ ∀ old ∈ items, ¬ hit old := by
  induction items with
  | nil => exact .inr (.inr ⟨List.mem_singleton.mp member, nofun⟩)
  | cons first items ih =>
    obtain ⟨apart, unique⟩ := List.nodup_cons.mp unique
    rw [upsert] at member
    split at member
    next found =>
      rcases List.mem_cons.mp member with rfl | member
      · exact .inr (.inl ⟨first, List.mem_cons_self, found, rfl⟩)
      · refine .inl ⟨List.mem_cons_of_mem _ member, fun again => apart ?_⟩
        rw [(byKey first).mp found, ← (byKey item).mp again]
        exact List.mem_map_of_mem member
    next missed =>
      rcases List.mem_cons.mp member with rfl | member
      · exact .inl ⟨List.mem_cons_self, missed⟩
      · rcases ih unique member with ⟨kept, other⟩ | ⟨old, inside, found⟩ | ⟨same, none⟩
        · exact .inl ⟨List.mem_cons_of_mem _ kept, other⟩
        · exact .inr (.inl ⟨old, List.mem_cons_of_mem _ inside, found⟩)
        · exact .inr (.inr ⟨same, List.forall_mem_cons.mpr ⟨missed, none⟩⟩)

end Upsert
