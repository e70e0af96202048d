import DuckdbOdata.Foundation.SqlLexer

/-! Positional parameters of a prepared statement. The first placeholder among
the tokens takes the first value, and so on; there must be exactly as many values. -/

namespace Sql

def placeholder : Token := .op ['?']

/-- A token of a statement whose parameters have been filled in. -/
inductive Filled (V : Type)
  | token (token : Token)
  | value (value : V)

variable {V : Type}

def fill : List Token → List V → Option (List (Filled V))
  | [], [] => some []
  | [], _ :: _ => none
  | token :: rest, values =>
    if token = placeholder then
      match values with
      | [] => none
      | value :: later => (fill rest later).map (.value value :: ·)
    else (fill rest values).map (.token token :: ·)

@[simp] theorem fill_nil : fill [] ([] : List V) = some [] := rfl

@[simp] theorem fill_placeholder (rest : List Token) (value : V) (values : List V) :
    fill (placeholder :: rest) (value :: values) = (fill rest values).map (.value value :: ·) := by
  rw [fill, if_pos rfl]

theorem fill_token {token : Token} (plain : token ≠ placeholder) (rest : List Token) (values : List V) :
    fill (token :: rest) values = (fill rest values).map (.token token :: ·) := by
  simp [fill, plain]

theorem fill_append {first last : List Token} {values later : List V} {start finish : List (Filled V)}
    (front : fill first values = some start) (back : fill last later = some finish) :
    fill (first ++ last) (values ++ later) = some (start ++ finish) := by
  induction first generalizing values start with
  | nil =>
    cases values with
    | nil =>
      cases front
      exact back
    | cons value values => cases front
  | cons token first ih =>
    by_cases marked : token = placeholder
    · subst marked
      cases values with
      | nil => simp [fill] at front
      | cons value values =>
        rw [fill_placeholder] at front
        obtain ⟨middle, found, rfl⟩ := Option.map_eq_some_iff.mp front
        rw [List.cons_append, List.cons_append, fill_placeholder, ih found]
        rfl
    · rw [fill_token marked] at front
      obtain ⟨middle, found, rfl⟩ := Option.map_eq_some_iff.mp front
      rw [List.cons_append, fill_token marked, ih found]
      rfl

/-- Tokens without a placeholder take no value. -/
theorem fill_plain {tokens : List Token} (plain : placeholder ∉ tokens) :
    fill tokens ([] : List V) = some (tokens.map .token) := by
  induction tokens with
  | nil => rfl
  | cons token tokens ih =>
    obtain ⟨first, others⟩ := not_or.mp (mt List.mem_cons.mpr plain)
    rw [fill_token fun same => first same.symm, ih others]
    rfl

/-- Items with one placeholder each, between separators without any. -/
theorem fill_intercalate {between : List Token} (plain : placeholder ∉ between) {α : Type} (items : List α)
    (tokens : α → List Token) (value : α → V) (filled : α → List (Filled V))
    (each : ∀ item ∈ items, fill (tokens item) [value item] = some (filled item)) :
    fill (between.intercalate (items.map tokens)) (items.map value) =
      some ((between.map Filled.token).intercalate (items.map filled)) := by
  induction items with
  | nil => rfl
  | cons item items ih =>
    have first := each item List.mem_cons_self
    have later := ih fun other listed => each other (List.mem_cons_of_mem item listed)
    cases items with
    | nil => simpa using first
    | cons next items =>
      simp only [List.map_cons, List.intercalate_cons_cons] at later ⊢
      exact fill_append (fill_append first (fill_plain plain)) later

/-- There are as many placeholders as values. -/
theorem fill_count {tokens : List Token} {values : List V} {filled : List (Filled V)} (done : fill tokens values = some filled) :
    tokens.count placeholder = values.length := by
  induction tokens generalizing values filled with
  | nil =>
    cases values with
    | nil => rfl
    | cons value values => cases done
  | cons token tokens ih =>
    by_cases marked : token = placeholder
    · subst marked
      cases values with
      | nil => simp [fill] at done
      | cons value values =>
        rw [fill_placeholder] at done
        obtain ⟨middle, found, -⟩ := Option.map_eq_some_iff.mp done
        rw [List.count_cons_self, ih found, List.length_cons]
    · rw [fill_token marked] at done
      obtain ⟨middle, found, -⟩ := Option.map_eq_some_iff.mp done
      rw [List.count_cons_of_ne fun same => marked same, ih found]

end Sql
