import DuckdbOdata.Foundation.Trimming
import DuckdbOdata.Proofs.Routes

/-! Which nested types are taken for scalars. The classification cuts a type's
name at its first parenthesis, so whatever follows the parameters of a scalar is
lost, the brackets of a list or an array among it. -/

namespace DuckdbOdata.NestedTypes
open Text

/-- The name of a scalar type, without parameters. -/
structure ScalarName where
  text : Str
  plain : '(' ∉ text

mutual

inductive DuckType
  | scalar (base : ScalarName) (args : Option Str)
  | list (element : DuckType)
  | array (element : DuckType) (size : Nat)
  | struct (fields : Components)
  | map (key value : DuckType)
  | union (members : Components)

/-- Names, quoted where they have to be, and types. -/
inductive Components
  | nil
  | cons (name : Str) (type : DuckType) (rest : Components)

end

mutual

/-- The name as the catalog shows it. -/
def DuckType.text : DuckType → Str
  | .scalar base none => base.text
  | .scalar base (some args) => base.text ++ '(' :: (args ++ [')'])
  | .list element => element.text ++ "[]".toList
  | .array element size => element.text ++ '[' :: (Nat.toDigits 10 size ++ [']'])
  | .struct fields => "STRUCT".toList ++ '(' :: (", ".toList.intercalate fields.texts ++ [')'])
  | .map key value => "MAP".toList ++ '(' :: (key.text ++ ", ".toList ++ value.text ++ [')'])
  | .union members => "UNION".toList ++ '(' :: (", ".toList.intercalate members.texts ++ [')'])

def Components.texts : Components → List Str
  | .nil => []
  | .cons name type rest => (name ++ ' ' :: type.text) :: rest.texts

end

theorem DuckType.text_scalar (base : ScalarName) : (DuckType.scalar base none).text = base.text := rfl

theorem DuckType.text_parameters (base : ScalarName) (args : Str) :
    (DuckType.scalar base (some args)).text = base.text ++ '(' :: (args ++ [')']) := rfl

theorem DuckType.text_list (element : DuckType) : (DuckType.list element).text = element.text ++ "[]".toList := rfl

theorem DuckType.text_array (element : DuckType) (size : Nat) :
    (DuckType.array element size).text = element.text ++ '[' :: (Nat.toDigits 10 size ++ [']']) := rfl

def DuckType.nested : DuckType → Bool
  | .scalar _ _ => false
  | _ => true

/-- The type under all lists and arrays. -/
def DuckType.core : DuckType → DuckType
  | .list element => element.core
  | .array element _ => element.core
  | type => type

/-- The names of the scalars that have an EDM type. -/
def servedNames : List String :=
  ["boolean", "bool"] ++ (["tinyint", "int1"] ++ (["smallint", "int2"] ++ (["integer", "int4", "int", "signed"] ++
    (["bigint", "int8", "long"] ++ (["hugeint"] ++ (["utinyint", "usmallint", "uinteger", "ubigint", "uhugeint"] ++
    (["float", "real"] ++ (["double"] ++ (["decimal", "numeric", "money"] ++
    (["varchar", "char", "bpchar", "text", "string"] ++ (["date"] ++ (["time", "timetz"] ++
    (["timestamp", "timestamp with time zone", "timestamptz", "datetime", "datetime2"] ++ (["uuid"] ++
    ["blob", "bytea", "binary", "varbinary", "bit", "bitstring"]))))))))))))))

/-- A list or an array, to any depth, of a served scalar with parameters. -/
def DuckType.parameterized (type : DuckType) : Bool :=
  match type.core with
  | .scalar base (some _) => oneOf (trim (toLower base.text)) servedNames
  | _ => false

private theorem entry_iff {name : Str} {first last : List String} {type : EdmType} {rest : EdmType × Bool}
    (later : rest = (.unsupported, false) ↔ oneOf name last = false) :
    (if oneOf name first = true then (type, true) else rest) = (.unsupported, false) ↔ oneOf name (first ++ last) = false := by
  have both : oneOf name (first ++ last) = (oneOf name first || oneOf name last) := List.any_append
  rw [both, Bool.or_eq_false_iff]
  split
  next listed => simp [listed]
  next missing => simp [missing, later]

theorem unsupported_iff (text : Str) : duckDBTypeToEdm text = (.unsupported, false) ↔ oneOf (baseTypeOf text) servedNames = false := by
  unfold duckDBTypeToEdm servedNames
  iterate 15 apply entry_iff
  split
  next listed => simp [listed]
  next missing => simp [missing]

/-- Nothing from the first parenthesis on is looked at. -/
theorem baseTypeOf_cut (base rest : Str) : baseTypeOf (base ++ '(' :: rest) = baseTypeOf base := by
  have lower : toLower (base ++ '(' :: rest) = toLower base ++ '(' :: toLower rest := List.map_append
  rw [baseTypeOf, baseTypeOf, lower, takeWhile_marker]

theorem duckDBTypeToEdm_cut (base rest : Str) : duckDBTypeToEdm (base ++ '(' :: rest) = duckDBTypeToEdm base := by
  unfold duckDBTypeToEdm
  rw [baseTypeOf_cut]

private theorem baseTypeOf_plain {text : Str} (plain : '(' ∉ text) : baseTypeOf text = trim (toLower text) := by
  have all : ∀ c ∈ toLower text, decide (c ≠ '(') = true := by
    intro c member
    rw [decide_eq_true_eq]
    rintro rfl
    exact plain ((Routes.mem_toLower (by decide) text).mp member)
  rw [baseTypeOf, List.takeWhile_eq_self_iff.mpr all]

private theorem bracket_unserved {text : Str} (bracket : ']' ∈ text) : oneOf text servedNames = false := by
  have plain : ∀ name ∈ servedNames, ']' ∉ name.toList := by decide
  rw [oneOf, List.any_eq_false]
  intro name member
  rw [decide_eq_true_eq]
  rintro rfl
  exact plain name member bracket

private theorem text_core : ∀ type : DuckType, ∃ brackets, type.text = type.core.text ++ brackets ∧ '(' ∉ brackets ∧
    (type.core ≠ type → ']' ∈ brackets)
  | .scalar _ _ | .struct _ | .map _ _ | .union _ => ⟨[], (List.append_nil _).symm, List.not_mem_nil, fun other => absurd rfl other⟩
  | .list element => by
    obtain ⟨brackets, same, plain, -⟩ := text_core element
    refine ⟨brackets ++ "[]".toList, ?_, ?_, fun _ => by simp⟩
    · rw [DuckType.text_list, DuckType.core, same, List.append_assoc]
    · rw [List.mem_append, not_or]
      exact ⟨plain, by decide⟩
  | .array element size => by
    obtain ⟨brackets, same, plain, -⟩ := text_core element
    have digits : '(' ∉ Nat.toDigits 10 size := fun member =>
      absurd (Nat.isDigit_of_mem_toDigits (by decide) (by decide) member) (by decide)
    refine ⟨brackets ++ '[' :: (Nat.toDigits 10 size ++ [']']), ?_, ?_, fun _ => by simp⟩
    · rw [DuckType.text_array, DuckType.core, same, List.append_assoc]
    · simp [plain, digits]

private theorem core_shape : ∀ type : DuckType, (∃ base args, type.core = .scalar base args) ∨
    ∃ name rest, type.core.text = name ++ '(' :: rest ∧ '(' ∉ name ∧ oneOf (trim (toLower name)) servedNames = false ∧
      ∀ base args, type.core ≠ .scalar base args
  | .scalar base args => .inl ⟨base, args, rfl⟩
  | .list element => core_shape element
  | .array element _ => core_shape element
  | .struct _ => .inr ⟨"STRUCT".toList, _, rfl, by decide, by decide +kernel, fun _ _ => nofun⟩
  | .map _ _ => .inr ⟨"MAP".toList, _, rfl, by decide, by decide +kernel, fun _ _ => nofun⟩
  | .union _ => .inr ⟨"UNION".toList, _, rfl, by decide, by decide +kernel, fun _ _ => nofun⟩

private theorem parameterized_scalar {type : DuckType} {base : ScalarName} {args : Option Str} (core : type.core = .scalar base args) :
    type.parameterized = (args.isSome && oneOf (trim (toLower base.text)) servedNames) := by
  unfold DuckType.parameterized
  rw [core]
  cases args with
  | none => rfl
  | some args => rfl

private theorem text_unsupported {type : DuckType} (nested : type.nested = true) :
    duckDBTypeToEdm type.text = (.unsupported, false) ↔ type.parameterized = false := by
  obtain ⟨brackets, same, plain, closes⟩ := text_core type
  rw [same]
  rcases core_shape type with ⟨base, args, core⟩ | ⟨name, rest, begins, free, unserved, composite⟩
  · have apart : type.core ≠ type := by
      intro same
      rw [← same, core] at nested
      cases nested
    rw [parameterized_scalar core, core]
    cases args with
    | none =>
      have free : '(' ∉ base.text ++ brackets := by
        rw [List.mem_append, not_or]
        exact ⟨base.plain, plain⟩
      have bracket := (Routes.mem_toLower (by decide) (base.text ++ brackets)).mpr (List.mem_append_right _ (closes apart))
      have kept : ']' ∈ trim (toLower (base.text ++ brackets)) := Trimming.mem_trimBy (by decide) bracket
      rw [DuckType.text_scalar, unsupported_iff, baseTypeOf_plain free, bracket_unserved kept]
      exact iff_of_true rfl rfl
    | some args =>
      rw [DuckType.text_parameters, List.append_assoc, List.cons_append, duckDBTypeToEdm_cut, unsupported_iff, baseTypeOf_plain base.plain]
      rfl
  · have none : type.parameterized = false := by
      unfold DuckType.parameterized
      split
      next core => exact absurd core (composite _ _)
      next => rfl
    rw [begins, List.append_assoc, List.cons_append, duckDBTypeToEdm_cut, unsupported_iff, baseTypeOf_plain free]
    exact iff_of_true unserved none

/-- A nested type is unsupported if and only if it is no list or array of a
served scalar with parameters; a scalar with parameters is what it is without. -/
theorem nested_unsupported (type : DuckType) (base : ScalarName) (args : Str) :
    (type.nested = true → (duckDBTypeToEdm type.text = (.unsupported, false) ↔ type.parameterized = false)) ∧
      duckDBTypeToEdm (DuckType.scalar base (some args)).text = duckDBTypeToEdm base.text :=
  ⟨text_unsupported, duckDBTypeToEdm_cut _ _⟩

theorem nested_unsupported_integers :
    duckDBTypeToEdm (DuckType.list (.array (.scalar ⟨"INTEGER".toList, by decide⟩ none) 3)).text = (.unsupported, false) :=
  have settled := nested_unsupported (.list (.array (.scalar ⟨"INTEGER".toList, by decide⟩ none) 3)) ⟨"INTEGER".toList, by decide⟩ []
  (settled.1 rfl).mpr rfl

/-- The brackets are cut off with the parameters, and the list is a decimal. -/
theorem nested_unsupported_decimals :
    (DuckType.list (.scalar ⟨"DECIMAL".toList, by decide⟩ (some "18,3".toList))).text = "DECIMAL(18,3)[]".toList ∧
      duckDBTypeToEdm "DECIMAL(18,3)[]".toList = (.decimal, true) := by
  decide +kernel

end DuckdbOdata.NestedTypes
