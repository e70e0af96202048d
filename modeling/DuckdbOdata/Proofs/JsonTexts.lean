import Mathlib.Data.List.TakeWhile
import DuckdbOdata.Proofs.JsonEscapes
import DuckdbOdata.Server.ODataServer

/-! The JSON texts that the server writes, read back: escaped strings, values and
rows. -/

namespace DuckdbOdata.JsonTexts
open Text Json Binary64 JsonEscapes

theorem jsonString_closes (value : Str) : Closes (jsonString value) (.string value) := .string (jsonEscape_spells value)

private theorem unsigned_head {text : Str} (n : Nat) (rest : Str) (same : text = Nat.toDigits 10 n ++ rest) :
    text.head? ≠ some '-' := by
  intro minus
  have head : (Nat.toDigits 10 n).head? = some '-' := by
    rw [same, List.head?_append_of_ne_nil _ Nat.toDigits_ne_nil] at minus
    exact minus
  have digit := Nat.isDigit_of_mem_toDigits (by decide) (by decide) (List.mem_of_mem_head? head)
  cases digit

theorem intText_number (value : Int) : isNumber (intText value) = true := by
  have parts := lastPart_digits value.natAbs
  have complete : ∀ part, part = (if value.natAbs = 0 then Part.zero else Part.whole) → part.complete = true := by
    rintro part rfl
    split <;> rfl
  unfold intText isNumber
  split
  next =>
    rw [lastPart_minus parts (unsigned_head value.natAbs [] (List.append_nil _).symm)]
    exact complete _ rfl
  next =>
    rw [parts]
    exact complete _ rfl

private theorem decimal_number (negative : Bool) (n : Nat) {fraction : Str} (digits : ∀ c ∈ fraction, c.isDigit = true)
    (some : fraction ≠ []) : isNumber ((if negative then ['-'] else []) ++ (Nat.toDigits 10 n ++ '.' :: fraction)) = true := by
  have ends : (if n = 0 then Part.zero else Part.whole) = .zero ∨ (if n = 0 then Part.zero else Part.whole) = .whole := by
    split
    · exact .inl rfl
    · exact .inr rfl
  have parts := lastPart_fraction (lastPart_digits n) ends some digits
  unfold isNumber
  cases negative with
  | true =>
    rw [if_pos rfl, List.singleton_append, lastPart_minus parts (unsigned_head n _ rfl)]
    rfl
  | false =>
    rw [if_neg (by decide), List.nil_append, parts]
    rfl

/-- Of the decimals at least one is kept, and only zeros are cut off. -/
theorem trimZeros_places {whole fraction : Str} (plain : '.' ∉ whole) (some : fraction ≠ []) :
    ∃ kept zeros, trimZeros (whole ++ '.' :: fraction) = whole ++ '.' :: kept ∧ kept ≠ [] ∧
      fraction = kept ++ List.replicate zeros '0' := by
  have cutting : cut '.' (whole ++ '.' :: fraction) = .some (whole, fraction) := cut_first plain fraction
  have zeros : ∀ c ∈ fraction.reverse.takeWhile (· = '0'), c = '0' := fun c member => by
    simpa using List.mem_takeWhile_imp member
  have parts := congrArg List.reverse (List.takeWhile_append_dropWhile (p := (· = '0')) (l := fraction.reverse))
  rw [List.reverse_append, List.reverse_reverse, List.eq_replicate_of_mem zeros, List.reverse_replicate] at parts
  unfold trimZeros
  rw [cutting]
  dsimp only
  split
  next none =>
    rw [none, List.nil_append] at parts
    refine ⟨fraction.take 1, fraction.length - 1, rfl, by simpa using some, ?_⟩
    rw [← parts, List.length_replicate, List.take_replicate, List.replicate_append_replicate]
    congr 1
    rw [← List.length_pos_iff, ← parts, List.length_replicate] at some
    omega
  next kept => exact ⟨_, _, rfl, kept, parts.symm⟩

theorem formatDouble_number (d : Double) : isNumber (formatDouble (some d)) = true := by
  obtain ⟨n, fraction, shape, digits, some⟩ : ∃ n fraction, d.unsigned = Nat.toDigits 10 n ++ '.' :: fraction ∧
      (∀ c ∈ fraction, c.isDigit = true) ∧ fraction ≠ [] :=
    ⟨_, _, rfl, fun c => padded_digits, by simp [padded]⟩
  have plain : '.' ∉ (if d.negative then ['-'] else []) ++ Nat.toDigits 10 n := by
    intro member
    rcases List.mem_append.mp member with sign | digit
    · revert sign
      split <;> decide
    · exact absurd (Nat.isDigit_of_mem_toDigits (by decide) (by decide) digit) (by decide)
  obtain ⟨kept, zeros, trimmed, keptSome, rfl⟩ := trimZeros_places plain some
  rw [formatDouble, Double.fixed, shape, ← List.append_assoc, trimmed, List.append_assoc]
  exact decimal_number d.negative n (fun c member => digits c (List.mem_append_left _ member)) keptSome

/-- What a value is in JSON. -/
def jsonOf : Value → Json.Value
  | .null => .null
  | .boolean value => .boolean value
  | .integer value => .number (intText value)
  | .float none _ => .null
  | .float (some value) _ => .number (formatDouble (some value))
  | .numeric shown => .number shown
  | .text shown | .other shown => .string shown
  | .blob bytes _ => .string (base64Encode bytes)

/-- A number that the database prints is a number in JSON. -/
def Numeric (value : Value) : Prop := ∀ shown, value = .numeric shown → isNumber shown = true

private theorem base64Digit_plain (n : Nat) : base64Digit n ≠ '"' ∧ base64Digit n ≠ '\\' ∧ 32 ≤ (base64Digit n).toNat := by
  have digits : ∀ n ∈ List.range 64, base64Digit n ≠ '"' ∧ base64Digit n ≠ '\\' ∧ 32 ≤ (base64Digit n).toNat := by decide
  have same : base64Digit n = base64Digit (n % 64) := by simp [base64Digit]
  rw [same]
  exact digits _ (List.mem_range.mpr (Nat.mod_lt n (by decide)))

private theorem base64Encode_plain (bytes : Str) : ∀ c ∈ base64Encode bytes, c ≠ '"' ∧ c ≠ '\\' ∧ 32 ≤ c.toNat := by
  have padding : '=' ≠ '"' ∧ '=' ≠ '\\' ∧ 32 ≤ '='.toNat := by decide
  induction bytes using base64Encode.induct with
  | case1 => exact nofun
  | case2 a =>
    simp only [base64Encode, List.forall_mem_cons, List.not_mem_nil, false_imp_iff, implies_true, and_true]
    exact ⟨base64Digit_plain _, base64Digit_plain _, padding, padding⟩
  | case3 a b =>
    simp only [base64Encode, List.forall_mem_cons, List.not_mem_nil, false_imp_iff, implies_true, and_true]
    exact ⟨base64Digit_plain _, base64Digit_plain _, base64Digit_plain _, padding⟩
  | case4 a b c rest ih =>
    rw [base64Encode]
    simp only [List.forall_mem_cons]
    exact ⟨base64Digit_plain _, base64Digit_plain _, base64Digit_plain _, base64Digit_plain _, ih⟩

theorem valueToJson_reads {value : Value} (numeric : Numeric value) : Reads (valueToJson value) (jsonOf value) := by
  cases value with
  | null => exact Closes.null.reads
  | boolean value => exact (Closes.boolean value).reads
  | integer value => exact .number (intText_number value)
  | float value shown =>
    cases value with
    | none => exact Closes.null.reads
    | some d => exact .number (formatDouble_number d)
  | numeric shown => exact .number (numeric shown rfl)
  | text shown => exact (jsonString_closes shown).reads
  | blob bytes shown => exact (Closes.string (.plain (base64Encode_plain bytes))).reads
  | other shown => exact (jsonString_closes shown).reads

/-- The members of a row, under the column names. -/
def rowMembers (names : List Str) (row : Row) : List (Str × Json.Value) := (names.zip row).map fun (name, value) => (name, jsonOf value)

theorem rowObject_closes {names : List Str} {row : Row} (numeric : ∀ value ∈ row, Numeric value) :
    Closes ('\x7b' :: (serializeMembers names row ++ ['\x7d'])) (.object (rowMembers names row)) := by
  have closes := Closes.object (fun item => valueToJson item.2) (fun item => jsonOf item.2) (fun item => jsonEscape item.1) Prod.fst
    (names.zip row) (fun item _ => jsonEscape_spells item.1) fun item member => valueToJson_reads (numeric item.2 (List.of_mem_zip member).2)
  have same : serializeMembers names row =
      [','].intercalate ((names.zip row).map fun item => '"' :: (jsonEscape item.1 ++ '"' :: ':' :: valueToJson item.2)) := by
    simp [serializeMembers, jsonString]
  rw [same]
  exact closes

/-- The rows of a result, in order. -/
def rowsArray (result : ResultSet) : Json.Value := .array (result.rows.map fun row => .object (rowMembers result.names row))

theorem serializeRows_closes {result : ResultSet} (numeric : ∀ row ∈ result.rows, ∀ value ∈ row, Numeric value) :
    Closes ('[' :: ((serializeRows result).1 ++ [']'])) (rowsArray result) :=
  .array result.rows fun row member => (rowObject_closes (numeric row member)).reads

/-- An entry of the service document. -/
def entryOf (name : Str) : Json.Value :=
  .object [("name".toList, .string name), ("kind".toList, .string "EntitySet".toList), ("url".toList, .string name)]

private def entryParts (name : Str) : List (Str × Str) :=
  [("name".toList, name), ("kind".toList, "EntitySet".toList), ("url".toList, name)]

private theorem entryParts_plain (name : Str) : ∀ item ∈ entryParts name, Spells item.1 item.1 := by
  intro item member
  simp only [entryParts, List.mem_cons, List.not_mem_nil, or_false] at member
  rcases member with rfl | rfl | rfl
  all_goals
    dsimp only
    exact .plain (every (by decide))

private theorem serviceElement_parts (binding : EntityBinding) : serviceElement binding =
    '\x7b' :: ([','].intercalate ((entryParts binding.name).map fun item => '"' :: (item.1 ++ '"' :: ':' :: jsonString item.2)) ++
      ['\x7d']) := by
  have kind : jsonString "EntitySet".toList = "\"EntitySet\"".toList := by
    repeat rw [String.toList_ofList]
    rfl
  have front : "\x7b\"name\":\"".toList = '\x7b' :: '"' :: ("name".toList ++ ['"', ':', '"']) := by
    repeat rw [String.toList_ofList]
    rfl
  have middle : "\",\"kind\":\"EntitySet\",\"url\":\"".toList = '"' :: ',' :: '"' :: ("kind".toList ++ '"' :: ':' ::
      ("\"EntitySet\"".toList ++ ',' :: '"' :: ("url".toList ++ ['"', ':', '"']))) := by
    repeat rw [String.toList_ofList]
    rfl
  have back : "\"\x7d".toList = ['"', '\x7d'] := rfl
  simp only [entryParts, List.map_cons, List.map_nil, kind, List.intercalate_cons_cons, List.intercalate_singleton]
  unfold serviceElement jsonString
  rw [front, middle, back]
  simp only [List.cons_append, List.nil_append, List.append_assoc]

theorem serviceElement_closes (binding : EntityBinding) : Closes (serviceElement binding) (entryOf binding.name) := by
  rw [serviceElement_parts]
  exact .object _ (fun item => .string item.2) Prod.fst Prod.fst (entryParts binding.name) (entryParts_plain binding.name) fun item _ => (jsonString_closes item.2).reads

end DuckdbOdata.JsonTexts
