import DuckdbOdata.Foundation.Base64
import DuckdbOdata.Execution.IndexedEncoder

/-! Base64 of blobs. The loop over the indices computes the encoding group by
group and never reads past the data, and decoding gives the bytes back. -/

namespace DuckdbOdata.Base64RoundTrip
open Text Base64

def Bytes (data : Str) : Prop := ∀ c ∈ data, c.toNat < 256

private theorem Bytes.of_cons {c : Char} {data : Str} (bytes : Bytes (c :: data)) : c.toNat < 256 ∧ Bytes data :=
  List.forall_mem_cons.mp bytes

theorem base64Digit_mod (n : Nat) : base64Digit n = digitOf (n % 64) := rfl

private theorem six (n : Nat) : n % 64 < 64 := Nat.mod_lt n (by decide)

theorem decode_base64Encode {data : Str} (bytes : Bytes data) : decode (base64Encode data) = some data := by
  induction data using base64Encode.induct with
  | case1 => rfl
  | case2 a =>
    have small := bytes.of_cons.1
    simp only [base64Encode, base64Digit_mod]
    rw [decode_one (six _) (six _) (by omega), byte_toNat (c := a) (by omega)]
  | case3 a b =>
    obtain ⟨first, others⟩ := bytes.of_cons
    have second := others.of_cons.1
    simp only [base64Encode, base64Digit_mod]
    rw [decode_two (six _) (six _) (six _) (by omega), byte_toNat (c := a) (by omega), byte_toNat (c := b) (by omega)]
  | case4 a b c rest ih =>
    obtain ⟨first, others⟩ := bytes.of_cons
    obtain ⟨second, others⟩ := others.of_cons
    obtain ⟨third, others⟩ := others.of_cons
    simp only [base64Encode, base64Digit_mod]
    rw [decode_group (six _) (six _) (six _) (six _), ih others, byte_toNat (c := a) (by omega), byte_toNat (c := b) (by omega),
      byte_toNat (c := c) (by omega)]
    rfl

theorem base64Encode_length (data : Str) : (base64Encode data).length = 4 * ((data.length + 2) / 3) := by
  induction data using base64Encode.induct with
  | case1 => rfl
  | case2 a => simp [base64Encode]
  | case3 a b => simp [base64Encode]
  | case4 a b c rest ih =>
    simp only [base64Encode, List.length_cons, ih]
    omega

theorem tbl_and (n : Nat) : Indexed.tbl (n &&& 63) = base64Digit n := by
  rw [show 63 = 2 ^ 6 - 1 from rfl, Nat.and_two_pow_sub_one_eq_mod]
  rfl

/-- Two bytes in the upper places. -/
theorem joined_two {first second : Nat} (small : second < 256) :
    first <<< 16 ||| second <<< 8 = first * 65536 + second * 256 := by
  rw [← Nat.shiftLeft_add_eq_or_of_lt (by rw [Nat.shiftLeft_eq]; omega), Nat.shiftLeft_eq, Nat.shiftLeft_eq]

theorem joined {first second third : Nat} (small : second < 256) (last : third < 256) :
    first <<< 16 ||| second <<< 8 ||| third = first * 65536 + second * 256 + third := by
  have high : first * 65536 + second * 256 = (first * 256 + second) <<< 8 := by
    rw [Nat.shiftLeft_eq]
    omega
  rw [joined_two small, high, ← Nat.shiftLeft_add_eq_or_of_lt last]

/-- Every index read is inside the data. -/
abbrev Inside (data : Str) (post : α → Prop) (run : Recorded Nat Exn α) : Prop :=
  Recorded.Ensures (· < data.length) (fun _ => False) post run

theorem byteAt_inside {data : Str} {i : Nat} {c : Char} (here : data[i]? = some c) :
    Inside data (· = c.toNat) (Indexed.byteAt data i) := by
  have inside : i < data.length := (List.getElem?_eq_some_iff.mp here).1
  have noted : Inside data (fun _ => True) (Recorded.note i) := .note inside
  unfold Indexed.byteAt
  refine noted.bind fun _ _ => ?_
  rw [here]
  exact .pure rfl

/-- After the loop at most two bytes are left, and the output lacks their group. -/
structure Grouped (data : Str) (whole : Str) (state : Nat × Str) : Prop where
  inside : state.1 ≤ data.length
  short : data.length < state.1 + 3
  output : state.2 ++ base64Encode (data.drop state.1) = whole

private theorem Bytes.get {data : Str} (bytes : Bytes data) {i : Nat} (inside : i < data.length) : data[i].toNat < 256 :=
  bytes _ (List.getElem_mem inside)

theorem groupLoop_inside {data : Str} (bytes : Bytes data) (i : Nat) (out : Str) (inside : i ≤ data.length) :
    Inside data (Grouped data (out ++ base64Encode (data.drop i))) (Indexed.groupLoop data i out) := by
  induction i, out using Indexed.groupLoop.induct data with
  | case1 i out whole ih =>
    rw [Indexed.groupLoop, if_pos whole]
    refine (byteAt_inside (List.getElem?_eq_getElem (by omega))).bind ?_
    rintro first rfl
    refine (byteAt_inside (List.getElem?_eq_getElem (by omega))).bind ?_
    rintro second rfl
    refine (byteAt_inside (List.getElem?_eq_getElem (by omega))).bind ?_
    rintro third rfl
    have later := ih data[i].toNat data[i + 1].toNat data[i + 2].toNat whole
    have start : data.drop i = data[i] :: data[i + 1] :: data[i + 2] :: data.drop (i + 3) := by
      rw [List.drop_eq_getElem_cons (by omega), List.drop_eq_getElem_cons (by omega), List.drop_eq_getElem_cons (by omega)]
    simp only [joined (bytes.get _) (bytes.get _), tbl_and, Nat.shiftRight_eq_div_pow, Nat.reducePow] at later ⊢
    rw [start, base64Encode]
    simpa only [List.append_assoc, List.cons_append, List.nil_append] using later
  | case2 i out short =>
    rw [Indexed.groupLoop, if_neg short]
    exact .pure ⟨inside, by omega, rfl⟩

/-- The loop over the indices writes the encoding of the groups. -/
theorem base64Encode_inside {data : Str} (bytes : Bytes data) :
    Inside data (· = base64Encode data) (Indexed.base64Encode data) := by
  unfold Indexed.base64Encode
  refine (groupLoop_inside bytes 0 [] (Nat.zero_le _)).bind ?_
  rintro ⟨i, out⟩ ⟨inside, short, output⟩
  dsimp only at inside short output ⊢
  rw [List.drop_zero, List.nil_append] at output
  rw [← output]
  split
  next one =>
    refine (byteAt_inside (List.getElem?_eq_getElem (by omega))).bind ?_
    rintro first rfl
    have rest : data.drop i = [data[i]] := by
      rw [List.drop_eq_getElem_cons (by omega), one, List.drop_length]
    simp only [Nat.shiftLeft_eq, tbl_and, Nat.shiftRight_eq_div_pow, rest, base64Encode]
    exact .pure rfl
  split
  next two =>
    refine (byteAt_inside (List.getElem?_eq_getElem (by omega))).bind ?_
    rintro first rfl
    refine (byteAt_inside (List.getElem?_eq_getElem (by omega))).bind ?_
    rintro second rfl
    have rest : data.drop i = [data[i], data[i + 1]] := by
      rw [List.drop_eq_getElem_cons (by omega), List.drop_eq_getElem_cons (by omega), two, List.drop_length]
    simp only [joined_two (bytes.get _), tbl_and, Nat.shiftRight_eq_div_pow, rest, base64Encode]
    exact .pure rfl
  next many none =>
    have rest : data.drop i = [] := List.drop_eq_nil_iff.mpr (by omega)
    rw [rest, base64Encode, List.append_nil]
    exact .pure rfl

/-- Every blob is encoded without a read outside of it, into four digits for every
three bytes begun, and decoding the digits gives the blob. -/
theorem base64_round_trip {data : Str} (bytes : Bytes data) :
    ∃ out, (Indexed.base64Encode data).result = .ok out ∧ base64Encode data = out ∧ decode out = some data ∧
      out.length = 4 * ((data.length + 2) / 3) ∧ ∀ i ∈ (Indexed.base64Encode data).events, i < data.length := by
  have encoded := base64Encode_inside bytes
  cases done : (Indexed.base64Encode data).result with
  | error failure => exact (encoded.error failure done).elim
  | ok out =>
    have same := encoded.ok out done
    refine ⟨out, rfl, same.symm, ?_, ?_, encoded.events⟩
    · rw [same]
      exact decode_base64Encode bytes
    · rw [same]
      exact base64Encode_length data

theorem base64_round_trip_ff : ∃ out, (Indexed.base64Encode [Char.ofNat 255, Char.ofNat 0]).result = .ok out ∧
    base64Encode [Char.ofNat 255, Char.ofNat 0] = out ∧ decode out = some [Char.ofNat 255, Char.ofNat 0] ∧
    out.length = 4 * ((2 + 2) / 3) ∧ ∀ i ∈ (Indexed.base64Encode [Char.ofNat 255, Char.ofNat 0]).events, i < 2 :=
  base64_round_trip (every (by decide))

end DuckdbOdata.Base64RoundTrip
