import DuckdbOdata.Foundation.Substrings
import DuckdbOdata.Proofs.NullSemantics

/-! The string functions of a filter. OData counts positions from zero, the
database from one; the compiler renames the functions and keeps the numbers. -/

namespace DuckdbOdata.StringFunctions
open Text Sql FilterGrammar SqlTokens Precedence NullSemantics Substrings

/-- A value of a column or of a function. -/
inductive Scalar
  | text (value : Str)
  | int (value : Int)
  | other (shown : Str)
deriving DecidableEq

abbrev Operand := Option (Datum Scalar)

def text (value : Str) : Operand := some (.other (.text value))

def int (value : Int) : Operand := some (.other (.int value))

/-- The database's functions: a position is counted from one, and 0 stands for no
occurrence. -/
structure CountsFromOne (values : Values Scalar) : Prop where
  strpos : ∀ whole part, values.call "strpos".toList [text whole, text part] =
    int ((firstAt whole part).elim 0 fun position => position + 1)
  substring : ∀ whole (start : Nat), values.call "substring".toList [text whole, int start] = text (whole.drop (start - 1))
  -- position 0 is the place before the first character
  slice : ∀ whole (start size : Nat), values.call "substring".toList [text whole, int start, int size] =
    text (if start = 0 then whole.take (size - 1) else (whole.drop (start - 1)).take size)

variable (values : Values Scalar)

def indexOf (whole part : Str) : Int := (firstAt whole part).elim (-1) fun position => position

/-- OData's functions. Whatever is not asked of `indexof` and `substring`, such as
a negative position, is left to the database. -/
def odataCall (name : Str) (args : List Operand) : Operand :=
  if toLower name = "indexof".toList then
    match args with
    | [some (.other (.text whole)), some (.other (.text part))] => int (indexOf whole part)
    | _ => values.call (functionOf name) args
  else if toLower name = "substring".toList then
    match args with
    | [some (.other (.text whole)), some (.other (.int (.ofNat start)))] => text (whole.drop start)
    | [some (.other (.text whole)), some (.other (.int (.ofNat start))), some (.other (.int (.ofNat size)))] =>
      text ((whole.drop start).take size)
    | _ => values.call (functionOf name) args
  else values.call (functionOf name) args

/-- The functions that the compiled SQL calls. -/
def sqlCall (name : Str) (args : List Operand) : Operand := values.call (functionOf name) args

/-- Connectives and comparisons, which are SQL's. -/
def node (op : BinaryOp) (first last : Operand) : Operand :=
  match op with
  | .and => (conjunction (values.truth first) (values.truth last)).map .truth
  | .or => (disjunction (values.truth first) (values.truth last)).map .truth
  | op =>
    match first, last with
    | some first, some last => some (.truth (values.related (sqlOperator op) first last))
    | _, _ => none

mutual
/-- The value of a filter on a row, over a meaning of functions. -/
def meaning (call : Str → List Operand → Operand) (entity : EdmEntity) (row : Str → Operand) : Expr → Operand
  | .property name => row (columnOf entity name)
  | .literal value => literalValue values [] value
  | .unary .not child => (negation (values.truth (meaning call entity row child))).map .truth
  | .binary op left right =>
    let first := operand values entity (meaning call entity row left) left right
    let last := operand values entity (meaning call entity row right) right left
    if (op = .eq ∨ op = .ne) ∧ NullTested left right then combine values op (some (nullSafeEqual values first last)) first last
    else node values op first last
  | .functionCall name args => call name (meanings call entity row args)

def meanings (call : Str → List Operand → Operand) (entity : EdmEntity) (row : Str → Operand) : List Expr → List Operand
  | [] => []
  | arg :: others => meaning call entity row arg :: meanings call entity row others
end

variable {values}

private theorem eval_node (row : Str → Operand) (op : BinaryOp) (left right : Tree) :
    eval values row (nodeTree op left right) = node values op (eval values row left) (eval values row right) := by
  cases op
  case and => rfl
  case or => rfl
  all_goals
    change eval values row (.compare _ left right) = _
    rw [eval]
    cases eval values row left with
    | none => rfl
    | some first => cases eval values row right <;> rfl

private theorem evalAll_images (entity : EdmEntity) (row : Str → Operand) (call : Str → List Operand → Operand) (args : List Expr)
    (each : ∀ arg ∈ args, eval values row (image entity arg) = meaning values call entity row arg) :
    evalAll values row (images entity args) = meanings values call entity row args := by
  induction args with
  | nil => rfl
  | cons arg others ih =>
    rw [images, evalAll, meanings, each arg List.mem_cons_self, ih fun other member => each other (List.mem_cons_of_mem _ member)]

/-- The compiled tree has the value of the filter over the database's functions. -/
theorem eval_meaning (entity : EdmEntity) (row : Str → Operand) (expr : Expr) :
    eval values row (image entity expr) = meaning values (sqlCall values) entity row expr := by
  induction expr with
  | property name => rfl
  | literal value => exact eval_literal values row [] value
  | unary op child ih =>
    cases op
    rw [image, eval, ih, meaning]
  | functionCall name args each =>
    rw [image, eval, evalAll_images entity row (sqlCall values) args each, meaning]
    rfl
  | binary op left right first last =>
    have leftValue := eval_operandTree values entity row left right first
    have rightValue := eval_operandTree values entity row right left last
    rw [meaning]
    split
    next tested => exact eval_tested values tested.1 tested.2 first last
    next untested =>
      have general : nullTest op = none ∨ ¬NullTested left right := by
        by_cases compares : op = .eq ∨ op = .ne
        · exact .inr fun tested => untested ⟨compares, tested⟩
        · left
          cases op <;> simp_all [nullTest]
      rw [image_untested entity general, eval_node, leftValue, rightValue]

/-- The two meanings of a call agree: `indexof` never does, and a cut-out does at
the start, past the end, for size 0 or in a run of equal characters. -/
def Aligned (name : Str) (args : List Operand) : Prop :=
  if toLower name = "indexof".toList then
    match args with
    | [some (.other (.text _)), some (.other (.text _))] => False
    | _ => True
  else if toLower name = "substring".toList then
    match args with
    | [some (.other (.text whole)), some (.other (.int (.ofNat start)))] => start = 0 ∨ whole.length < start
    | [some (.other (.text whole)), some (.other (.int (.ofNat start))), some (.other (.int (.ofNat size)))] =>
      size = 0 ∨ whole.length < (if start = 0 then size else start) ∨
        0 < start ∧ ∃ c, (whole.drop (start - 1)).take (size + 1) = List.replicate (size + 1) c
    | _ => True
  else True

private theorem text_inj {first last : Str} : text first = text last ↔ first = last := by simp [text]

private theorem slice_iff (whole : Str) (start size : Nat) :
    (if start = 0 then whole.take (size - 1) else (whole.drop (start - 1)).take size) = (whole.drop start).take size ↔
      size = 0 ∨ whole.length < (if start = 0 then size else start) ∨
        0 < start ∧ ∃ c, (whole.drop (start - 1)).take (size + 1) = List.replicate (size + 1) c := by
  cases start with
  | zero =>
    rw [if_pos rfl, if_pos rfl, List.drop_zero, take_pred]
    simp
  | succ start =>
    rw [if_neg (Nat.succ_ne_zero start), if_neg (Nat.succ_ne_zero start), Nat.add_sub_cancel]
    cases shape : whole.drop start with
    | nil =>
      have short : whole.length ≤ start := List.drop_eq_nil_iff.mp shape
      rw [List.drop_eq_nil_iff.mpr (short.trans (Nat.le_succ start))]
      exact iff_of_true rfl (.inr (.inl (by omega)))
    | cons c rest =>
      have long : start < whole.length := by
        by_contra short
        rw [List.drop_eq_nil_iff.mpr (by omega)] at shape
        cases shape
      have next : whole.drop (start + 1) = rest := by
        rw [← List.drop_drop, shape]
        rfl
      rw [next, take_tail]
      constructor
      · rintro (none | run)
        · exact .inl none
        · exact .inr (.inr ⟨Nat.succ_pos start, c, run⟩)
      · rintro (none | past | ⟨-, d, run⟩)
        · exact .inl none
        · omega
        · have same : c = d := by
            rw [List.take_succ_cons, List.replicate_succ] at run
            exact (List.cons.inj run).1
          exact .inr (same ▸ run)

private theorem functionOf_indexof {name : Str} (named : toLower name = "indexof".toList) : functionOf name = "strpos".toList := by
  rw [functionOf, findFunction, named]
  rfl

private theorem functionOf_substring {name : Str} (named : toLower name = "substring".toList) :
    functionOf name = "substring".toList := by
  rw [functionOf, findFunction, named]
  rfl

/-- A call of the database's function is OData's exactly if the two ways of
counting agree on its operands. -/
theorem sqlCall_iff (counts : CountsFromOne values) (name : Str) (args : List Operand) :
    sqlCall values name args = odataCall values name args ↔ Aligned name args := by
  unfold odataCall Aligned sqlCall
  by_cases indexof : toLower name = "indexof".toList
  · rw [if_pos indexof, if_pos indexof, functionOf_indexof indexof]
    split
    next whole part =>
      have found := counts.strpos whole part
      rw [text, text] at found
      rw [found, iff_false, indexOf]
      cases firstAt whole part with
      | none => exact fun same => by cases same
      | some position =>
        intro same
        simp only [int, Option.elim, Option.some.injEq, Datum.other.injEq, Scalar.int.injEq] at same
        omega
    next => exact iff_of_true rfl trivial
  rw [if_neg indexof, if_neg indexof]
  by_cases substring : toLower name = "substring".toList
  · rw [if_pos substring, if_pos substring, functionOf_substring substring]
    split
    next whole start =>
      have cuts : values.call "substring".toList [some (.other (.text whole)), some (.other (.int (Int.ofNat start)))] =
          text (whole.drop (start - 1)) := counts.substring whole start
      rw [cuts, text_inj, drop_pred]
    next whole start size =>
      have cuts : values.call "substring".toList [some (.other (.text whole)), some (.other (.int (Int.ofNat start))),
          some (.other (.int (Int.ofNat size)))] =
          text (if start = 0 then whole.take (size - 1) else (whole.drop (start - 1)).take size) := counts.slice whole start size
      rw [cuts, text_inj, slice_iff]
    next => exact iff_of_true rfl trivial
  · rw [if_neg substring, if_neg substring]
    exact iff_of_true rfl trivial

variable (values)

mutual
/-- Every call in the filter is aligned on its operands. -/
def AllAligned (entity : EdmEntity) (row : Str → Operand) : Expr → Prop
  | .property _ => True
  | .literal _ => True
  | .unary _ child => AllAligned entity row child
  | .binary _ left right => AllAligned entity row left ∧ AllAligned entity row right
  | .functionCall name args => EachAligned entity row args ∧ Aligned name (meanings values (odataCall values) entity row args)

def EachAligned (entity : EdmEntity) (row : Str → Operand) : List Expr → Prop
  | [] => True
  | arg :: others => AllAligned entity row arg ∧ EachAligned entity row others
end

variable {values}

private theorem meanings_aligned (entity : EdmEntity) (row : Str → Operand) (args : List Expr)
    (each : ∀ arg ∈ args, AllAligned values entity row arg →
      meaning values (sqlCall values) entity row arg = meaning values (odataCall values) entity row arg)
    (aligned : EachAligned values entity row args) :
    meanings values (sqlCall values) entity row args = meanings values (odataCall values) entity row args := by
  induction args with
  | nil => rfl
  | cons arg others ih =>
    obtain ⟨first, later⟩ := aligned
    rw [meanings, meanings, each arg List.mem_cons_self first,
      ih (fun other member => each other (List.mem_cons_of_mem _ member)) later]

/-- Where all calls are aligned the whole filter has OData's value. -/
theorem meaning_aligned (counts : CountsFromOne values) (entity : EdmEntity) (row : Str → Operand) (expr : Expr)
    (aligned : AllAligned values entity row expr) :
    meaning values (sqlCall values) entity row expr = meaning values (odataCall values) entity row expr := by
  induction expr with
  | property name => rfl
  | literal value => rfl
  | unary op child ih =>
    cases op
    rw [meaning, meaning, ih aligned]
  | binary op left right first last =>
    rw [meaning, meaning, first aligned.1, last aligned.2]
  | functionCall name args each =>
    obtain ⟨operands, here⟩ := aligned
    rw [meaning, meaning, meanings_aligned entity row args each operands]
    exact (sqlCall_iff counts name _).mpr here

/-- The compiled condition has OData's value where every call is aligned, and for a
call with aligned operands nowhere else. The shifts of `indexof` and `substring`
cancel each other out. -/
theorem string_functions (counts : CountsFromOne values) {entity : EdmEntity} (types : WellFormedTypes entity)
    (row : Str → Operand) {expr : Expr} {condition : Str} (done : compile entity expr = .ok condition) (separated : Separated expr) :
    ∃ tree, parseSql condition = some tree ∧
      (AllAligned values entity row expr → eval values row tree = meaning values (odataCall values) entity row expr) ∧
      (∀ name args, expr = .functionCall name args → EachAligned values entity row args →
        (eval values row tree = meaning values (odataCall values) entity row expr ↔
          Aligned name (meanings values (odataCall values) entity row args))) ∧
      ∀ name inner first last, expr = .functionCall name [first, .functionCall inner [first, last]] →
        toLower name = "substring".toList → toLower inner = "indexof".toList →
        ∀ whole part position, eval values row (image entity first) = text whole →
          eval values row (image entity last) = text part → firstAt whole part = some position →
          eval values row tree = text (whole.drop position) ∧ part <+: whole.drop position := by
  refine ⟨image entity expr, (compile_image entity types expr condition done).mpr separated, ?_, ?_, ?_⟩
  · intro aligned
    rw [eval_meaning, meaning_aligned counts entity row expr aligned]
  · intro name args same operands
    subst same
    rw [eval_meaning, meaning, meaning, meanings_aligned entity row args
      (fun arg _ => meaning_aligned counts entity row arg) operands]
    exact sqlCall_iff counts name _
  · intro name inner first last same outer index whole part position firstValue lastValue found
    subst same
    refine ⟨?_, firstAt_prefix found⟩
    have located := counts.strpos whole part
    rw [found] at located
    have cuts := counts.substring whole (position + 1)
    rw [image, eval, images, images, images, evalAll, evalAll, evalAll, image, eval, images, images, images, evalAll, evalAll, evalAll,
      firstValue, lastValue, functionOf_substring outer, functionOf_indexof index, located]
    exact cuts

/-- The two functions, and integer and string literals. -/
private def duckdb : Values Scalar where
  number negative digits := .other (.int (if negative then -Nat.ofDigitChars 10 digits 0 else Nat.ofDigitChars 10 digits 0))
  string value := .other (.text value)
  cast value _ := value
  call name args :=
    if name = "strpos".toList then
      match args with
      | [some (.other (.text whole)), some (.other (.text part))] => int ((firstAt whole part).elim 0 fun position => position + 1)
      | _ => none
    else match args with
      | [some (.other (.text whole)), some (.other (.int (.ofNat start)))] => text (whole.drop (start - 1))
      | [some (.other (.text whole)), some (.other (.int (.ofNat start))), some (.other (.int (.ofNat size)))] =>
        text (if start = 0 then whole.take (size - 1) else (whole.drop (start - 1)).take size)
      | _ => none
  equal first last := first = last
  less _ _ := false
  holds _ := false

private theorem duckdb_counts : CountsFromOne duckdb := ⟨fun _ _ => rfl, fun _ _ => rfl, fun _ _ _ => rfl⟩

private def words : EdmEntity :=
  { schema := "main".toList, name := "words".toList, properties := [{ name := "a".toList, duckdbType := "VARCHAR".toList }] }

private def abc : Str → Operand := fun _ => text "abc".toList

theorem string_functions_start : ∃ tree, parseSql "substring(\"a\", 0)".toList = some tree ∧
    eval duckdb abc tree = text "abc".toList := by
  have types : WellFormedTypes words := by
    intro prop member
    cases List.mem_singleton.mp member
    exact ⟨Sql.lexes_word _ (by decide), by decide, by decide⟩
  have done : compile words (.functionCall "substring".toList [.property "a".toList, .literal (.integer 0)]) =
    .ok "substring(\"a\", 0)".toList := rfl
  obtain ⟨tree, parsed, value, -⟩ := string_functions duckdb_counts types abc done ⟨trivial, trivial, trivial⟩
  exact ⟨tree, parsed, value ⟨⟨trivial, trivial, trivial⟩, .inl rfl⟩⟩

/-- `abc` contains `a` at position 0, which is position 1 in SQL. -/
theorem string_functions_indexof :
    ∃ expr condition tree, parseFilter "indexof(a,'a') eq 0".toList = .ok expr ∧ compile words expr = .ok condition ∧
      parseSql condition = some tree ∧ duckdb.truth (meaning duckdb (odataCall duckdb) words abc expr) = some true ∧
      ¬ Keeps duckdb abc tree := by
  let expr : Expr := .binary .eq (.functionCall "indexof".toList [.property "a".toList, .literal (.string "a".toList)])
    (.literal (.integer 0))
  have tokens : tokenize "indexof(a,'a') eq 0".toList = .ok (print expr ++ [{ type := .end }]) := rfl
  have parsed : parseFilter "indexof(a,'a') eq 0".toList = .ok expr := by
    rw [parseFilter, tokens, ok_bind]
    exact parse_print expr rfl
  refine ⟨expr, "strpos(\"a\", 'a') = 0".toList, image words expr, parsed, rfl, rfl, rfl, ?_⟩
  intro keeps
  exact absurd (show some false = some true from keeps) (by decide)

end DuckdbOdata.StringFunctions
