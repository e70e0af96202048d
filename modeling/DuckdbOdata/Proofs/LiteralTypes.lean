import DuckdbOdata.Proofs.Entities
import DuckdbOdata.Proofs.SqlTokens

/-! The type at which a string literal is compared: that of the other operand,
unless it is a call of a function that the compiler's lists of names leave out. -/

namespace DuckdbOdata.LiteralTypes
open Text Entities SqlTokens

/-- The Edm types of the properties are those of the catalog's types. -/
def CatalogTyped (entity : EdmEntity) : Prop := ∀ prop ∈ entity.properties, prop.edmType = (duckDBTypeToEdm prop.duckdbType).1

theorem applyColumnPolicy_typed {catalog : Catalog} {binding : EntityBinding} {built : EdmEntity}
    (resolved : buildEntity catalog binding = .ok built) : CatalogTyped (applyColumnPolicy built binding) := by
  intro prop member
  obtain ⟨columns, keys, -, same⟩ := buildEntity_columns resolved
  have listed := (applyColumnPolicy_property.mp member).1
  rw [same, List.map_map] at listed
  obtain ⟨column, -, rfl⟩ := List.mem_map.mp listed
  rw [Function.comp_apply, (markKey_same keys (propertyOf column)).2]
  exact (markKey_typed keys (propertyOf column)).1

def integerFunctions : List String := ["year", "month", "day", "hour", "minute", "second", "length", "indexof"]

def stringFunctions : List String := ["tolower", "toupper", "trim", "substring", "concat"]

def truthFunctions : List String := ["contains", "startswith", "endswith"]

/-- The functions whose results are numbers or moments. -/
def unlistedFunctions : List String := ["round", "floor", "ceiling", "abs", "now"]

def numberTypes : List EdmType := [.sbyte, .int16, .int32, .int64, .single, .double, .decimal]

/-- The type of an operand's values. -/
inductive ResultType (entity : EdmEntity) : Expr → Str → Prop
  | property {name prop} : findProperty entity name = some prop → ResultType entity (.property name) prop.duckdbType
  | integer {name args} : oneOf (toLower name) integerFunctions →
      ResultType entity (.functionCall name args) "BIGINT".toList
  | string {name args} : oneOf (toLower name) stringFunctions →
      ResultType entity (.functionCall name args) "VARCHAR".toList
  | truth {name args} : oneOf (toLower name) truthFunctions →
      ResultType entity (.functionCall name args) "BOOLEAN".toList
  | number {name args type} : oneOf (toLower name) ["round", "floor", "ceiling", "abs"] → (duckDBTypeToEdm type).1 ∈ numberTypes →
      ResultType entity (.functionCall name args) type
  | moment {name args type} : toLower name = "now".toList → (duckDBTypeToEdm type).1 = .dateTimeOffset →
      ResultType entity (.functionCall name args) type

/-- A property of a supported type, or a call of a whitelisted function. -/
inductive Supported (entity : EdmEntity) : Expr → Prop
  | property {name prop} : findProperty entity name = some prop → prop.edmType ≠ .unsupported → Supported entity (.property name)
  | call {name args} : (findFunction name).isSome → Supported entity (.functionCall name args)

def castText (value type : Str) : Str := "CAST(".toList ++ quoteStringLiteral value ++ " AS ".toList ++ type ++ ")".toList

/-- The literal's text is plain for a string type, and cast to the operand's type
otherwise. -/
def WellTyped (entity : EdmEntity) (value : Str) (operand : Expr) (literal : Str) : Prop :=
  ∃ type, ResultType entity operand type ∧
    (isStringBase (baseTypeOf type) ∧ literal = quoteStringLiteral value ∨
      isStringBase (baseTypeOf type) = false ∧ literal = castText value type)

/-- The functions that are taken for truth-valued ones. -/
def Unlisted : Expr → Prop
  | .functionCall name _ => oneOf (toLower name) unlistedFunctions
  | _ => False

private theorem literalText (value type : Str) :
    compileLiteral type (.string value) = if baseTypeOf type = [] ∨ isStringBase (baseTypeOf type) then quoteStringLiteral value
      else castText value type := rfl

/-- A literal on either side is compiled at the type found for the other side. -/
theorem compile_typed {entity : EdmEntity} {operand : Expr} (supported : Supported entity operand) (op : BinaryOp) (value : Str)
    {text : Str} (done : compile entity operand = .ok text) :
    compile entity (.binary op (.literal (.string value)) operand) =
        .ok (joined op (compileLiteral (resolveLiteralType entity operand) (.string value)) text) ∧
      compile entity (.binary op operand (.literal (.string value))) =
        .ok (joined op text (compileLiteral (resolveLiteralType entity operand) (.string value))) := by
  have open' : operand.literal? = none := by cases supported <;> rfl
  have left : binaryForm op (.literal (.string value)) operand = .literalLeft (.string value) := by
    rw [binaryForm, open']
    cases nullTest op <;> rfl
  have right : binaryForm op operand (.literal (.string value)) = .literalRight (.string value) := by
    rw [binaryForm, open']
    cases nullTest op <;> rfl
  constructor
  · rw [compile, left, done]
    rfl
  · rw [compile, right, done]
    rfl

private theorem functionMap_classes : ∀ entry ∈ functionMap,
    (oneOf entry.odataName integerFunctions = true ∧ oneOf entry.odataName unlistedFunctions = false) ∨
      (oneOf entry.odataName integerFunctions = false ∧ oneOf entry.odataName stringFunctions = true ∧
        oneOf entry.odataName unlistedFunctions = false) ∨
      (oneOf entry.odataName integerFunctions = false ∧ oneOf entry.odataName stringFunctions = false ∧
        oneOf entry.odataName truthFunctions = true ∧ oneOf entry.odataName unlistedFunctions = false) ∨
      (oneOf entry.odataName integerFunctions = false ∧ oneOf entry.odataName stringFunctions = false ∧
        oneOf entry.odataName truthFunctions = false ∧ oneOf entry.odataName unlistedFunctions = true) := by
  decide

private theorem supported_base {entity : EdmEntity} (typed : CatalogTyped entity) {name : Str} {prop : EdmProperty}
    (found : findProperty entity name = some prop) (known : prop.edmType ≠ .unsupported) : baseTypeOf prop.duckdbType ≠ [] := by
  intro empty
  have member : prop ∈ entity.properties := List.mem_reverse.mp (List.mem_of_find?_eq_some found)
  apply known
  rw [typed prop member, duckDBTypeToEdm, empty]
  rfl

private theorem castText_ne (value other type : Str) : quoteStringLiteral value ≠ castText other type := by
  intro same
  have quote : (quoteStringLiteral value).head? = some '\'' := rfl
  have letter : (castText other type).head? = some 'C' := rfl
  rw [same, letter] at quote
  cases quote

private theorem castText_inj {value first last : Str} (same : castText value first = castText value last) : first = last := by
  unfold castText at same
  rw [List.append_left_inj] at same
  exact (List.append_right_inj _).mp same

/-- A literal compared with a call of a function that no list names is cast to
BOOLEAN; every other one is compared at the other operand's type. -/
theorem literal_typed {entity : EdmEntity} (typed : CatalogTyped entity) {operand : Expr} (supported : Supported entity operand)
    (op : BinaryOp) (value : Str) {text : Str} (done : compile entity operand = .ok text) :
    ∃ literal, compile entity (.binary op (.literal (.string value)) operand) = .ok (joined op literal text) ∧
      compile entity (.binary op operand (.literal (.string value))) = .ok (joined op text literal) ∧
      (WellTyped entity value operand literal ↔ ¬ Unlisted operand) := by
  obtain ⟨left, right⟩ := compile_typed supported op value done
  refine ⟨_, left, right, ?_⟩
  have plain : ∀ {type : Str}, baseTypeOf type ≠ [] → ResultType entity operand type →
      resolveLiteralType entity operand = type →
      WellTyped entity value operand (compileLiteral (resolveLiteralType entity operand) (.string value)) := by
    intro type base result same
    refine ⟨type, result, ?_⟩
    rw [same, literalText]
    cases string : isStringBase (baseTypeOf type) with
    | true => exact .inl ⟨rfl, if_pos (.inr rfl)⟩
    | false => exact .inr ⟨rfl, if_neg (by simp [base])⟩
  cases supported with
  | @property name prop found known =>
    refine iff_of_true (plain (supported_base typed found known) (.property found) ?_) not_false
    rw [resolveLiteralType, found]
    exact if_pos known
  | @call name args found =>
    obtain ⟨entry, found⟩ := Option.isSome_iff_exists.mp found
    obtain ⟨member, named⟩ := findFunction_mem found
    have classes := functionMap_classes entry member
    rw [← named] at classes
    have resolved : resolveLiteralType entity (.functionCall name args) = if oneOf (toLower name) integerFunctions then "BIGINT".toList
        else if oneOf (toLower name) stringFunctions then "VARCHAR".toList else "BOOLEAN".toList := rfl
    rcases classes with ⟨integer, listed⟩ | ⟨other, string, listed⟩ | ⟨other, another, truth, listed⟩ | ⟨other, another, third, unlisted⟩
    · refine iff_of_true (plain (by decide) (.integer integer) ?_) (by simp [Unlisted, listed])
      rw [resolved, if_pos integer]
    · refine iff_of_true (plain (by decide) (.string string) ?_) (by simp [Unlisted, listed])
      rw [resolved, other, if_neg Bool.false_ne_true, if_pos string]
    · refine iff_of_true (plain (by decide) (.truth truth) ?_) (by simp [Unlisted, listed])
      rw [resolved, other, another, if_neg Bool.false_ne_true, if_neg Bool.false_ne_true]
    · refine iff_of_false ?_ (not_not.mpr unlisted)
      rw [resolved, other, another, if_neg Bool.false_ne_true, if_neg Bool.false_ne_true]
      have emitted : compileLiteral "BOOLEAN".toList (.string value) = castText value "BOOLEAN".toList := rfl
      rw [emitted]
      intro ⟨type, result, shape⟩
      have same : type = "BOOLEAN".toList := by
        rcases shape with ⟨-, quoted⟩ | ⟨-, cast⟩
        · exact absurd quoted.symm (castText_ne value value _)
        · exact (castText_inj cast).symm
      cases result with
      | integer integer => simp [integer] at other
      | string string => simp [string] at another
      | truth truth => simp [truth] at third
      | number _ number =>
        rw [same] at number
        exact absurd number (by decide)
      | moment _ moment =>
        rw [same] at moment
        cases moment

private def readings : EdmEntity where
  name := "readings".toList
  properties := [{ name := "a".toList, edmType := .int64, duckdbType := "BIGINT".toList }]

private theorem readings_typed : CatalogTyped readings := by
  intro prop member
  cases List.mem_singleton.mp member
  rfl

theorem literal_typed_length : ∃ literal,
    compile readings (.binary .eq (.literal (.string "1".toList)) (.functionCall "Length".toList [.property "a".toList])) =
      .ok (joined .eq literal "length(\"a\")".toList) ∧
    WellTyped readings "1".toList (.functionCall "Length".toList [.property "a".toList]) literal := by
  have done : compile readings (.functionCall "Length".toList [.property "a".toList]) = .ok "length(\"a\")".toList := rfl
  obtain ⟨literal, left, -, typed⟩ := literal_typed readings_typed (.call rfl) .eq "1".toList done
  refine ⟨literal, left, typed.mpr ?_⟩
  intro unlisted
  cases unlisted

/-- The point in time `now()` is compared with a truth value. -/
theorem literal_typed_now :
    compile readings (.binary .gt (.functionCall "now".toList []) (.literal (.string "2026-01-01".toList))) =
        .ok "now() > CAST('2026-01-01' AS BOOLEAN)".toList ∧
      ¬ WellTyped readings "2026-01-01".toList (.functionCall "now".toList []) "CAST('2026-01-01' AS BOOLEAN)".toList := by
  refine ⟨rfl, ?_⟩
  intro ⟨type, result, shape⟩
  have same : type = "BOOLEAN".toList := by
    have emitted : "CAST('2026-01-01' AS BOOLEAN)".toList = castText "2026-01-01".toList "BOOLEAN".toList := rfl
    rw [emitted] at shape
    rcases shape with ⟨-, quoted⟩ | ⟨-, cast⟩
    · exact absurd quoted.symm (castText_ne _ _ _)
    · exact (castText_inj cast).symm
  cases result with
  | integer integer => cases integer
  | string string => cases string
  | truth truth => cases truth
  | number number => cases number
  | moment _ moment =>
    rw [same] at moment
    cases moment

end DuckdbOdata.LiteralTypes
