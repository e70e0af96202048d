import DuckdbOdata.Foundation.JsonReader
import DuckdbOdata.Execution.ResultSerializer

/-! Escaped strings. A reader takes the escaped text up to the quote after it and
has the string back, whatever bytes it consists of. -/

namespace DuckdbOdata.JsonEscapes
open Text Json

private theorem hexDigit_value : ∀ n ∈ List.range 16, Json.hexDigit (DuckdbOdata.hexDigit n) = some n := by decide

/-- Every byte is escaped so that it is read back. -/
theorem jsonEscapeChar_piece (c : Char) : Piece (jsonEscapeChar c) [c] := by
  unfold jsonEscapeChar
  split
  next quote =>
    subst quote
    exact .escape rfl
  next quote =>
  split
  next backslash =>
    subst backslash
    exact .escape rfl
  next backslash =>
  split
  next same =>
    subst same
    exact .escape rfl
  split
  next same =>
    subst same
    exact .escape rfl
  split
  next same =>
    subst same
    exact .escape rfl
  split
  next same =>
    subst same
    exact .escape rfl
  split
  next same =>
    subst same
    exact .escape rfl
  split
  next control =>
    have high := hexDigit_value (c.toNat / 16) (List.mem_range.mpr (by omega))
    have low := hexDigit_value (c.toNat % 16) (List.mem_range.mpr (by omega))
    have piece := Piece.unit (show Json.hexDigit '0' = some 0 from rfl) (show Json.hexDigit '0' = some 0 from rfl) high low
    have unit : ((0 * 16 + 0) * 16 + c.toNat / 16) * 16 + c.toNat % 16 = c.toNat := by omega
    have ascii : utf8 c.toNat = [c] := by
      rw [utf8, if_pos (by omega), Char.ofNat_toNat]
    rwa [unit, ascii] at piece
  next printable => exact .char quote backslash (by omega)

theorem jsonEscape_cons (c : Char) (value : Str) : jsonEscape (c :: value) = jsonEscapeChar c ++ jsonEscape value := rfl

theorem jsonEscape_spells (value : Str) : Spells (jsonEscape value) value := by
  have spells : Spells (value.flatMap jsonEscapeChar) (value.flatMap fun c => [c]) :=
    Spells.flatMap fun c _ => (jsonEscapeChar_piece c).spells
  rwa [List.flatMap_singleton'] at spells

/-- The characters that no backslash stands for: each backslash is left out with
the character after it. -/
def outsideEscapes : Str → Str
  | [] => []
  | [c] => [c]
  | c :: d :: rest => if c = '\\' then outsideEscapes rest else c :: outsideEscapes (d :: rest)

theorem outsideEscapes_cons {c : Char} (plain : c ≠ '\\') (rest : Str) : outsideEscapes (c :: rest) = c :: outsideEscapes rest := by
  cases rest with
  | nil => rfl
  | cons d rest => rw [outsideEscapes, if_neg plain]

private theorem escaped_printable {c : Char} {value : Str} (known : escaped c = some value) : 32 ≤ c.toNat := by
  unfold escaped at known
  split at known
  next short => rcases short with rfl | rfl | rfl <;> decide
  split at known
  next same => exact same ▸ by decide
  split at known
  next same => exact same ▸ by decide
  split at known
  next same => exact same ▸ by decide
  split at known
  next same => exact same ▸ by decide
  split at known
  next same => exact same ▸ by decide
  next => cases known

private theorem hexDigit_plain {c : Char} {n : Nat} (digit : Json.hexDigit c = some n) : 32 ≤ c.toNat ∧ c ≠ '"' ∧ c ≠ '\\' := by
  have printable : 48 ≤ c.toNat := by
    unfold Json.hexDigit at digit
    split at digit
    next range => exact range.1
    split at digit
    next range => exact le_trans (by decide) (show 97 ≤ c.toNat from range.1)
    split at digit
    next range => exact le_trans (by decide) (show 65 ≤ c.toNat from range.1)
    next => cases digit
  refine ⟨by omega, ?_, ?_⟩
  · rintro rfl
    cases digit
  · rintro rfl
    cases digit

/-- A piece has no control character, and a quote only behind its backslash. -/
theorem piece_plain {raw value : Str} (piece : Piece raw value) :
    (∀ c ∈ raw, 32 ≤ c.toNat) ∧ ∀ rest, ∃ shown, outsideEscapes (raw ++ rest) = shown ++ outsideEscapes rest ∧ '"' ∉ shown := by
  cases piece with
  | @char c quote backslash printable =>
    refine ⟨fun d member => List.mem_singleton.mp member ▸ printable, fun rest => ⟨[c], outsideEscapes_cons backslash rest, ?_⟩⟩
    exact fun member => quote (List.mem_singleton.mp member).symm
  | @escape c value known =>
    refine ⟨?_, fun rest => ⟨[], rfl, List.not_mem_nil⟩⟩
    simp only [List.forall_mem_cons]
    exact ⟨by decide, escaped_printable known, nofun⟩
  | @unit a b c d w x y z one two three four =>
    obtain ⟨first, firstQuote, firstPlain⟩ := hexDigit_plain one
    obtain ⟨second, secondQuote, secondPlain⟩ := hexDigit_plain two
    obtain ⟨third, thirdQuote, thirdPlain⟩ := hexDigit_plain three
    obtain ⟨fourth, fourthQuote, fourthPlain⟩ := hexDigit_plain four
    refine ⟨?_, fun rest => ⟨[a, b, c, d], ?_, ?_⟩⟩
    · simp only [List.forall_mem_cons]
      exact ⟨by decide, by decide, first, second, third, fourth, nofun⟩
    · simp only [List.cons_append, List.nil_append]
      rw [outsideEscapes, if_pos rfl, outsideEscapes_cons firstPlain, outsideEscapes_cons secondPlain,
        outsideEscapes_cons thirdPlain, outsideEscapes_cons fourthPlain]
    · simp [firstQuote.symm, secondQuote.symm, thirdQuote.symm, fourthQuote.symm]

theorem jsonEscape_printable (value : Str) : ∀ c ∈ jsonEscape value, 32 ≤ c.toNat := by
  intro c member
  obtain ⟨d, -, inside⟩ := List.mem_flatMap.mp member
  exact (piece_plain (jsonEscapeChar_piece d)).1 c inside

theorem jsonEscape_quotes (value : Str) : '"' ∉ outsideEscapes (jsonEscape value) := by
  induction value with
  | nil => exact List.not_mem_nil
  | cons c value ih =>
    obtain ⟨shown, split, free⟩ := (piece_plain (jsonEscapeChar_piece c)).2 (jsonEscape value)
    rw [jsonEscape_cons, split]
    exact fun member => (List.mem_append.mp member).elim free ih

theorem readString_jsonString (value rest : Str) : readString (jsonString value ++ rest) = some (value, rest) := by
  have inside : readStringFrom .plain (jsonEscape value ++ '"' :: rest) = some (value, rest) := by
    induction value with
    | nil => rfl
    | cons c value ih =>
      rw [jsonEscape_cons, List.append_assoc, (jsonEscapeChar_piece c).reads, ih]
      rfl
  have whole : jsonString value ++ rest = '"' :: (jsonEscape value ++ '"' :: rest) := by simp [jsonString]
  rw [whole, readString, if_pos rfl, inside]

/-- Escaping can be undone: between quotes the text is read exactly up to the
closing one, and it has no control character and no quote of its own. Strings
among the values of a row are written in this way. -/
theorem jsonEscape_inverts (value rest : Str) :
    readString ('"' :: (jsonEscape value ++ '"' :: rest)) = some (value, rest) ∧
      (∀ c ∈ jsonEscape value, 32 ≤ c.toNat) ∧ '"' ∉ outsideEscapes (jsonEscape value) ∧
      readString (valueToJson (.text value) ++ rest) = some (value, rest) ∧
      readString (valueToJson (.other value) ++ rest) = some (value, rest) := by
  have read := readString_jsonString value rest
  have whole : jsonString value ++ rest = '"' :: (jsonEscape value ++ '"' :: rest) := by simp [jsonString]
  exact ⟨whole ▸ read, jsonEscape_printable value, jsonEscape_quotes value, read, read⟩

end DuckdbOdata.JsonEscapes
