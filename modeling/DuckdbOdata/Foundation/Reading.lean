import Mathlib.Data.List.Basic

/-! Readers over lists of tokens of any kind: one token that must come next, and
items with a separator between them. -/

namespace Reading

variable {Token α : Type} [DecidableEq Token]

def expect (token : Token) : List Token → Option (List Token)
  | [] => none
  | first :: rest => if first = token then some rest else none

def readItems (separator : Token) (read : List Token → Option (α × List Token)) : Nat → List Token → Option (List α × List Token)
  | 0, _ => none
  | fuel + 1, tokens => do
    let (item, rest) ← read tokens
    match expect separator rest with
    | none => some ([item], rest)
    | some more =>
      let (items, after) ← readItems separator read fuel more
      some (item :: items, after)

/-- Items with a separator between them: no more than there are tokens. -/
def readList (separator : Token) (read : List Token → Option (α × List Token)) (tokens : List Token) : Option (List α × List Token) :=
  readItems separator read tokens.length tokens

@[simp] theorem expect_same (token : Token) (rest : List Token) : expect token (token :: rest) = some rest := if_pos rfl

theorem expect_other {token : Token} {rest : List Token} (other : rest.head? ≠ some token) : expect token rest = none := by
  cases rest with
  | nil => rfl
  | cons first rest =>
    apply if_neg
    intro same
    exact other (congrArg some same)

private theorem readItems_all {separator : Token} {read : List Token → Option (α × List Token)} {text : α → List Token}
    {items : List α} (reads : ∀ item ∈ items, ∀ rest, read (text item ++ rest) = some (item, rest)) (present : items ≠ [])
    {rest : List Token} (stops : rest.head? ≠ some separator) {fuel : Nat} (enough : items.length ≤ fuel) :
    readItems separator read fuel ([separator].intercalate (items.map text) ++ rest) = some (items, rest) := by
  induction items generalizing fuel with
  | nil => exact absurd rfl present
  | cons item others ih =>
    cases fuel with
    | zero => exact absurd enough (Nat.not_succ_le_zero _)
    | succ fuel =>
      have first := reads item List.mem_cons_self
      cases others with
      | nil =>
        rw [List.map_cons, List.map_nil, List.intercalate_singleton, readItems, first rest]
        simp [expect_other stops]
      | cons next others =>
        have later := ih (fun other member => reads other (List.mem_cons_of_mem _ member)) (List.cons_ne_nil next others)
          (Nat.le_of_succ_le_succ enough)
        simp only [List.map_cons] at later ⊢
        rw [List.intercalate_cons_cons, List.append_assoc, List.append_assoc, List.singleton_append, readItems, first]
        simp [later]

omit [DecidableEq Token] in
private theorem intercalate_length (separator : Token) {texts : List (List Token)} (some : ∀ text ∈ texts, text ≠ []) :
    texts.length ≤ ([separator].intercalate texts).length := by
  induction texts with
  | nil => exact Nat.zero_le _
  | cons text texts ih =>
    have later := ih fun other member => some other (List.mem_cons_of_mem _ member)
    have first := List.length_pos_iff.mpr (some text List.mem_cons_self)
    cases texts with
    | nil =>
      rw [List.intercalate_singleton]
      exact first
    | cons next texts =>
      rw [List.intercalate_cons_cons, List.length_append, List.length_append]
      simp only [List.length_cons, List.length_nil] at later ⊢
      omega

/-- A list is read item by item, up to what is no separator. -/
theorem readList_all {separator : Token} {read : List Token → Option (α × List Token)} {text : α → List Token} {items : List α}
    (reads : ∀ item ∈ items, ∀ rest, read (text item ++ rest) = some (item, rest)) (filled : ∀ item ∈ items, text item ≠ [])
    (present : items ≠ []) {rest : List Token} (stops : rest.head? ≠ some separator) :
    readList separator read ([separator].intercalate (items.map text) ++ rest) = some (items, rest) := by
  apply readItems_all reads present stops
  have texts : ∀ one ∈ items.map text, one ≠ [] := by
    intro one member
    obtain ⟨item, here, rfl⟩ := List.mem_map.mp member
    exact filled item here
  have short := intercalate_length separator texts
  rw [List.length_map] at short
  rw [List.length_append]
  omega

end Reading
