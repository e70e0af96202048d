import Mathlib.Data.List.Forall2
import Mathlib.Logic.Relation
import DuckdbOdata.Common.IndexedQuery
import DuckdbOdata.Foundation.TextSearch

/-! Query strings. A query is cut at its separators before anything is decoded, so
whatever an encoder writes for the names and values is read back. -/

namespace DuckdbOdata.QueryStrings
open Text

/-- A hex digit of either case. -/
def HexDigit (n : Nat) (c : Char) : Prop := n < 16 ∧ (c = n.digitChar ∨ c = n.digitChar.toUpper)

/-- What may be written for one byte. -/
inductive Writes : Char → Str → Prop
  | itself {c} : c ∉ ['&', '=', '%', '+'] → Writes c [c]
  | escape {c hi lo high low} : HexDigit hi high → HexDigit lo low → c.toNat = hi * 16 + lo → Writes c ['%', high, low]
  | plus : Writes ' ' ['+']

inductive Encodes : Str → Str → Prop
  | nil : Encodes [] []
  | cons {c part text encoded} : Writes c part → Encodes text encoded → Encodes (c :: text) (part ++ encoded)

def EncodesPair (pair : Str × Str) (item : Str) : Prop :=
  ∃ name value, Encodes pair.1 name ∧ Encodes pair.2 value ∧ item = name ++ '=' :: value

/-- One more separator at an end, or beside another one. -/
inductive Extra : Str → Str → Prop
  | start (query) : Extra query ('&' :: query)
  | finish (query) : Extra query (query ++ ['&'])
  | between (front back) : Extra (front ++ '&' :: back) (front ++ '&' :: '&' :: back)

theorem HexDigit.value {n : Nat} {c : Char} (digit : HexDigit n c) : hexValue c = some n := by
  have lower : ∀ n ∈ List.range 16, hexValue n.digitChar = some n ∧ hexValue n.digitChar.toUpper = some n := by decide
  obtain ⟨small, rfl | rfl⟩ := digit
  · exact (lower n (List.mem_range.mpr small)).1
  · exact (lower n (List.mem_range.mpr small)).2

theorem hexValue_free {c : Char} {n : Nat} (digit : hexValue c = some n) : c ∉ ['&', '='] := by
  simp only [List.mem_cons, List.not_mem_nil, or_false]
  rintro (rfl | rfl) <;> cases digit

theorem Writes.decode {c : Char} {part : Str} (writes : Writes c part) (rest : Str) :
    urlDecode (part ++ rest) = c :: urlDecode rest := by
  cases writes with
  | itself plain =>
    simp only [List.mem_cons, List.not_mem_nil, or_false, not_or] at plain
    rw [List.singleton_append, urlDecode.eq_3 c rest (fun _ _ _ percent => absurd percent plain.2.2.1), if_neg plain.2.2.2]
  | escape high low code =>
    simp only [List.cons_append, List.nil_append]
    rw [urlDecode, high.value, low.value]
    dsimp only
    rw [← code, Char.ofNat_toNat]
  | plus => rfl

theorem Writes.free {c : Char} {part : Str} (writes : Writes c part) : '&' ∉ part ∧ '=' ∉ part := by
  cases writes with
  | itself plain =>
    simp only [List.mem_cons, List.not_mem_nil, or_false, not_or] at plain ⊢
    exact ⟨Ne.symm plain.1, Ne.symm plain.2.1⟩
  | escape high low code =>
    have first := hexValue_free high.value
    have second := hexValue_free low.value
    simp only [List.mem_cons, List.not_mem_nil, or_false, not_or] at first second ⊢
    exact ⟨⟨by decide, Ne.symm first.1, Ne.symm second.1⟩, by decide, Ne.symm first.2, Ne.symm second.2⟩
  | plus => decide

/-- Decoding undoes every encoder, and no separator is left in what it writes. -/
theorem Encodes.decode {text encoded : Str} (encodes : Encodes text encoded) :
    urlDecode encoded = text ∧ '&' ∉ encoded ∧ '=' ∉ encoded := by
  induction encodes with
  | nil => exact ⟨rfl, List.not_mem_nil, List.not_mem_nil⟩
  | cons writes _ ih =>
    obtain ⟨decoded, ampersand, equals⟩ := ih
    refine ⟨by rw [writes.decode, decoded], ?_, ?_⟩
    · exact fun member => (List.mem_append.mp member).elim writes.free.1 ampersand
    · exact fun member => (List.mem_append.mp member).elim writes.free.2 equals

/-- What is read from one field. -/
def readPair (pair : Str) : Str × Str :=
  match cut '=' pair with
  | none => (urlDecode pair, [])
  | some (name, value) => (urlDecode name, urlDecode value)

theorem parseQueryString_fields (query : Str) : parseQueryString query = ((fields '&' query).filter (· ≠ [])).map readPair := rfl

theorem EncodesPair.read {pair : Str × Str} {item : Str} (encodes : EncodesPair pair item) :
    readPair item = pair ∧ '&' ∉ item ∧ item ≠ [] := by
  obtain ⟨name, value, first, last, rfl⟩ := encodes
  obtain ⟨decodedName, nameFree, nameEquals⟩ := first.decode
  obtain ⟨decodedValue, valueFree, -⟩ := last.decode
  refine ⟨?_, ?_, by simp⟩
  · unfold readPair
    rw [cut_first nameEquals]
    exact Prod.ext decodedName decodedValue
  · simp only [List.mem_append, List.mem_cons, not_or]
    exact ⟨nameFree, by decide, valueFree⟩

theorem read_items {pairs : List (Str × Str)} {items : List Str} (written : List.Forall₂ EncodesPair pairs items) :
    items.map readPair = pairs ∧ ∀ item ∈ items, '&' ∉ item ∧ item ≠ [] := by
  induction written with
  | nil => exact ⟨rfl, nofun⟩
  | cons encodes _ ih =>
    refine ⟨by rw [List.map_cons, encodes.read.1, ih.1], ?_⟩
    exact List.forall_mem_cons.mpr ⟨encodes.read.2, ih.2⟩

theorem parseQueryString_join {pairs : List (Str × Str)} {items : List Str} (written : List.Forall₂ EncodesPair pairs items) :
    parseQueryString (['&'].intercalate items) = pairs := by
  obtain ⟨read, each⟩ := read_items written
  have kept : items.filter (· ≠ []) = items := List.filter_eq_self.mpr fun item member => by simpa using (each item member).2
  rw [parseQueryString_fields]
  by_cases some : items = []
  · subst some
    exact read
  · rw [fields_intercalate (fun item member => (each item member).1) some, kept, read]

/-- An additional separator only adds an empty field. -/
theorem Extra.same {query other : Str} (extra : Extra query other) : parseQueryString other = parseQueryString query := by
  simp only [parseQueryString_fields]
  cases extra with
  | start =>
    rw [fields, if_pos rfl]
    rfl
  | finish =>
    rw [fields_append, List.filter_append]
    simp [fields]
  | between front back =>
    rw [fields_append, fields_append, fields, if_pos rfl, List.filter_append, List.filter_append]
    rfl

private theorem hexValue_small {c : Char} {n : Nat} (digit : hexValue c = some n) : n < 16 := by
  have range : ∀ {low high : Char}, low ≤ c ∧ c ≤ high → low.toNat ≤ c.toNat ∧ c.toNat ≤ high.toNat := fun range => range
  unfold hexValue at digit
  split at digit
  next inside =>
    have bounds := range inside
    cases digit
    have high : '9'.toNat = 57 := rfl
    have low : '0'.toNat = 48 := rfl
    omega
  split at digit
  next inside =>
    have bounds := range inside
    cases digit
    have high : 'f'.toNat = 102 := rfl
    have low : 'a'.toNat = 97 := rfl
    omega
  split at digit
  next inside =>
    have bounds := range inside
    cases digit
    have high : 'F'.toNat = 70 := rfl
    have low : 'A'.toNat = 65 := rfl
    omega
  next => cases digit

private theorem urlDecode_other {input : Str} {i : Nat} (inside : i < input.length)
    (plain : ¬ (input[i] = '%' ∧ i + 2 < input.length)) :
    urlDecode (input.drop i) = (if input[i] = '+' then ' ' else input[i]) :: urlDecode (input.drop (i + 1)) := by
  rw [List.drop_eq_getElem_cons inside]
  apply urlDecode.eq_3
  intro high low rest percent more
  have long := congrArg List.length more
  simp only [List.length_drop, List.length_cons] at long
  exact plain ⟨percent, by omega⟩

theorem urlDecodeFrom_drop (input : Str) (i : Nat) : Indexed.urlDecodeFrom input i = urlDecode (input.drop i) := by
  have start : ∀ {i} (look : i + 2 < input.length) (inside : i < input.length), input[i] = '%' →
      input.drop i = '%' :: input[i + 1] :: input[i + 2] :: input.drop (i + 3) := by
    intro i look inside percent
    rw [List.drop_eq_getElem_cons inside, List.drop_eq_getElem_cons (by omega), List.drop_eq_getElem_cons (by omega), percent]
  induction i using Indexed.urlDecodeFrom.induct input with
  | case1 i inside c look hi lo low high ih =>
    have small := hexValue_small low
    rw [Indexed.urlDecodeFrom, dif_pos inside, dif_pos look, high, low]
    rw [List.get_eq_getElem] at high low
    rw [start look.2 inside look.1, urlDecode, high, low]
    dsimp only
    rw [ih, ← Nat.shiftLeft_add_eq_or_of_lt (by omega), Nat.shiftLeft_eq]
  | case2 i inside c look unread ih =>
    rw [Indexed.urlDecodeFrom, dif_pos inside, dif_pos look, start look.2 inside look.1, urlDecode]
    simp only [List.get_eq_getElem] at unread ⊢
    have next : input.drop (i + 1) = input[i + 1] :: input[i + 2] :: input.drop (i + 3) := by
      rw [List.drop_eq_getElem_cons (by omega), List.drop_eq_getElem_cons (by omega)]
    have literal : input[i] :: Indexed.urlDecodeFrom input (i + 1) =
        '%' :: urlDecode (input[i + 1] :: input[i + 2] :: input.drop (i + 3)) := by
      rw [ih, next]
      exact congrArg (· :: _) look.1
    cases high : hexValue input[i + 1] with
    | none => exact literal
    | some hi =>
      cases low : hexValue input[i + 2] with
      | none => exact literal
      | some lo => exact absurd low (unread hi lo high)
  | case3 i inside c plain plus ih =>
    rw [Indexed.urlDecodeFrom, dif_pos inside, dif_neg plain, if_pos plus, ih, urlDecode_other inside plain, if_pos plus]
  | case4 i inside c plain other ih =>
    rw [Indexed.urlDecodeFrom, dif_pos inside, dif_neg plain, if_neg other, ih, urlDecode_other inside plain, if_neg other]
  | case5 i outside =>
    rw [Indexed.urlDecodeFrom, dif_neg outside, List.drop_eq_nil_iff.mpr (Nat.not_lt.mp outside)]
    rfl

theorem urlDecode_indexed (input : Str) : Indexed.urlDecode input = urlDecode input := urlDecodeFrom_drop input 0

theorem cut_find (sep : Char) (text : Str) (pos : Nat) :
    cut sep (text.drop pos) =
      (Indexed.find text sep pos).map fun i => ((text.drop pos).take (i - pos), text.drop (i + 1)) := by
  rw [cut_findIdx, Indexed.find, Option.map_map]
  congr 1
  funext i
  simp [Nat.add_assoc]

/-- What one field adds. -/
theorem pairOf_read (pair : Str) : Indexed.pairOf pair = ([pair].filter (· ≠ [])).map readPair := by
  have position := cut_find '=' pair 0
  unfold Indexed.pairOf
  split
  next empty =>
    subst empty
    rfl
  next some =>
    have kept : [pair].filter (· ≠ []) = [pair] := List.filter_eq_self.mpr (by simpa using some)
    rw [List.drop_zero] at position
    rw [kept, List.map_singleton, readPair, position]
    cases Indexed.find pair '=' 0 with
    | none => simp [urlDecode_indexed]
    | some eq => simp [urlDecode_indexed]

theorem queryLoop_fields (query : Str) (pos : Nat) (inside : pos ≤ query.length) :
    Indexed.queryLoop query pos = ((fields '&' (query.drop pos)).filter (· ≠ [])).map readPair := by
  induction pos using Indexed.queryLoop.induct query with
  | case1 pos inside missing =>
    rw [Indexed.queryLoop, if_pos inside, fields_cut, cut_find, missing]
    exact pairOf_read (query.drop pos)
  | case2 pos inside amp found ih =>
    have later : amp + 1 ≤ query.length := by
      obtain ⟨index, first, rfl⟩ := Option.map_eq_some_iff.mp found
      obtain ⟨bound, -⟩ := List.findIdx?_eq_some_iff_getElem.mp first
      rw [List.length_drop] at bound
      omega
    have cuts := cut_find '&' query pos
    rw [found] at cuts
    rw [fields_cut, cuts, Indexed.queryLoop, if_pos inside]
    split
    next missing => cases found.symm.trans missing
    next other same =>
      cases found.symm.trans same
      have front := pairOf_read ((query.drop pos).take (amp - pos))
      rw [front, ih later, ← List.map_append, ← List.filter_append]
      rfl
  | case3 pos outside => exact absurd inside outside

/-- The loops compute what the splitting and decoding of the fields do. -/
theorem parseQueryString_indexed (query : Str) : Indexed.parseQueryString query = parseQueryString query := by
  unfold Indexed.parseQueryString
  split
  next empty =>
    subst empty
    rfl
  next => exact queryLoop_fields query 0 (Nat.zero_le _)

/-- Whatever an encoder writes for a list of names and values is read back, with any
number of additional separators. -/
theorem query_round_trip {pairs : List (Str × Str)} {items : List Str} (written : List.Forall₂ EncodesPair pairs items) :
    Indexed.parseQueryString (['&'].intercalate items) = pairs ∧
      ∀ query, Relation.ReflTransGen Extra (['&'].intercalate items) query → Indexed.parseQueryString query = pairs := by
  have joined := parseQueryString_join written
  refine ⟨(parseQueryString_indexed _).trans joined, fun query extras => ?_⟩
  rw [parseQueryString_indexed]
  induction extras with
  | refl => exact joined
  | tail _ extra ih => rw [extra.same, ih]

theorem query_round_trip_amp :
    Indexed.parseQueryString "a+b=%26".toList = [("a b".toList, ['&'])] ∧
      ∀ query, Relation.ReflTransGen Extra "a+b=%26".toList query → Indexed.parseQueryString query = [("a b".toList, ['&'])] := by
  have plain : ∀ c ∈ ['a', 'b'], Writes c [c] := by
    intro c member
    refine .itself ?_
    rcases List.mem_pair.mp member with rfl | rfl <;> decide
  have name : Encodes "a b".toList "a+b".toList :=
    .cons (plain 'a' (by decide)) (.cons .plus (.cons (plain 'b' (by decide)) .nil))
  have two : HexDigit 2 '2' := ⟨by decide, .inl rfl⟩
  have six : HexDigit 6 '6' := ⟨by decide, .inl rfl⟩
  have value : Encodes ['&'] "%26".toList := .cons (.escape two six rfl) .nil
  have pair : EncodesPair ("a b".toList, ['&']) "a+b=%26".toList := ⟨_, _, name, value, rfl⟩
  exact query_round_trip (.cons pair .nil)

end DuckdbOdata.QueryStrings
