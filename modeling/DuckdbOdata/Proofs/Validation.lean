import Mathlib.Data.List.Nodup
import DuckdbOdata.Proofs.FilterErrors
import DuckdbOdata.Proofs.SqlTokens

/-! Which filters compile. Every name at every depth is looked up, and nothing
else is checked; what is emitted names columns of the entity only. -/

namespace DuckdbOdata.Validation
open Text FilterGrammar FilterErrors SqlTokens

/-- A function on the list, up to case, with as many arguments as it takes. -/
def Known (name : Str) (count : Nat) : Prop :=
  ∃ entry ∈ functionMap, toLower name = entry.odataName ∧ entry.minArgs ≤ count ∧ count ≤ entry.maxArgs

mutual
/-- Every property is one of the entity's up to case, and every function is known. -/
def Valid (entity : EdmEntity) : Expr → Prop
  | .property name => ∃ prop ∈ entity.properties, sameName prop.name name
  | .literal _ => True
  | .unary _ child => Valid entity child
  | .binary _ left right => Valid entity left ∧ Valid entity right
  | .functionCall name args => Known name args.length ∧ AllValid entity args

def AllValid (entity : EdmEntity) : List Expr → Prop
  | [] => True
  | arg :: others => Valid entity arg ∧ AllValid entity others
end

mutual
/-- The properties that the filter names. -/
def properties : Expr → List Str
  | .property name => [name]
  | .literal _ => []
  | .unary _ child => properties child
  | .binary _ left right => properties left ++ properties right
  | .functionCall _ args => allProperties args

def allProperties : List Expr → List Str
  | [] => []
  | arg :: others => properties arg ++ allProperties others
end

theorem allValid_iff {entity : EdmEntity} {args : List Expr} : AllValid entity args ↔ ∀ arg ∈ args, Valid entity arg := by
  induction args with
  | nil => simp [AllValid]
  | cons arg others ih => simp [AllValid, ih]

theorem mem_allProperties {name : Str} {args : List Expr} :
    name ∈ allProperties args ↔ ∃ arg ∈ args, name ∈ properties arg := by
  induction args with
  | nil => simp [allProperties]
  | cons arg others ih => simp [allProperties, ih]

def Compiles (result : Except Exn α) : Prop := ∃ value, result = .ok value

theorem compiles_bind {result : Except Exn α} {next : α → β} :
    Compiles (result >>= fun value => .ok (next value)) ↔ Compiles result := by
  cases result with
  | error failure => exact ⟨nofun, nofun⟩
  | ok value => exact ⟨fun _ => ⟨value, rfl⟩, fun _ => ⟨_, rfl⟩⟩

theorem compiles_both {first : Except Exn α} {last : Except Exn β} {next : α → β → γ} :
    Compiles (first >>= fun one => last >>= fun other => .ok (next one other)) ↔ Compiles first ∧ Compiles last := by
  cases first with
  | error failure => exact ⟨nofun, nofun⟩
  | ok value => exact compiles_bind.trans ⟨fun done => ⟨⟨value, rfl⟩, done⟩, And.right⟩

theorem findProperty_isSome {entity : EdmEntity} {name : Str} :
    (∃ prop, findProperty entity name = some prop) ↔ ∃ prop ∈ entity.properties, sameName prop.name name := by
  rw [← Option.isSome_iff_exists, findProperty, List.find?_isSome]
  simp

theorem functionMap_unique : (functionMap.map (·.odataName)).Nodup := by decide

theorem findFunction_iff {name : Str} {entry : FunctionMapEntry} :
    findFunction name = some entry ↔ entry ∈ functionMap ∧ toLower name = entry.odataName := by
  refine ⟨findFunction_mem, ?_⟩
  rintro ⟨member, named⟩
  have found : (findFunction name).isSome := List.find?_isSome.mpr ⟨entry, member, by simpa using named⟩
  obtain ⟨other, found⟩ := Option.isSome_iff_exists.mp found
  obtain ⟨inside, same⟩ := findFunction_mem found
  rw [found, List.inj_on_of_nodup_map functionMap_unique inside member (same.symm.trans named)]

theorem compileArgs_compiles {entity : EdmEntity} {args : List Expr} :
    Compiles (compileArgs entity args) ↔ ∀ arg ∈ args, Compiles (compile entity arg) := by
  induction args with
  | nil => exact ⟨fun _ => nofun, fun _ => ⟨[], rfl⟩⟩
  | cons arg others ih => rw [compileArgs, compiles_both, ih, List.forall_mem_cons]

theorem known_none {name : Str} (absent : findFunction name = none) (count : Nat) : ¬ Known name count := by
  rintro ⟨entry, member, named, -⟩
  rw [findFunction_iff.mpr ⟨member, named⟩] at absent
  cases absent

theorem known_some {name : Str} {entry : FunctionMapEntry} (found : findFunction name = some entry) (count : Nat) :
    Known name count ↔ ¬ (count < entry.minArgs ∨ entry.maxArgs < count) := by
  rw [not_or, not_lt, not_lt]
  constructor
  · rintro ⟨other, inside, same, right⟩
    have listed := findFunction_iff.mpr ⟨inside, same⟩
    rw [found] at listed
    cases listed
    exact right
  · intro right
    obtain ⟨member, named⟩ := findFunction_mem found
    exact ⟨entry, member, named, right⟩

/-- `now` takes no arguments, so none is left out. -/
theorem now_empty {name : Str} {entry : FunctionMapEntry} {args : List Expr} (found : findFunction name = some entry)
    (now : toLower name = "now".toList) (right : ¬ (args.length < entry.minArgs ∨ entry.maxArgs < args.length)) : args = [] := by
  obtain ⟨member, named⟩ := findFunction_mem found
  obtain ⟨-, none⟩ := now_entry entry member (named ▸ now)
  exact List.length_eq_zero_iff.mp (by omega)

private theorem compiles_error {failure : Exn} : ¬ Compiles (.error failure : Except Exn Str) := by
  rintro ⟨text, same⟩
  cases same

private theorem compileCall_compiles {entity : EdmEntity} {name : Str} {args : List Expr} :
    Compiles (compile entity (.functionCall name args)) ↔
      Known name args.length ∧ ∀ arg ∈ args, Compiles (compile entity arg) := by
  rw [compile]
  cases found : findFunction name with
  | none => exact ⟨fun done => absurd done compiles_error, fun both => absurd both.1 (known_none found _)⟩
  | some entry =>
    rw [known_some found]
    dsimp only
    split
    next wrong => exact ⟨fun done => absurd done compiles_error, fun both => absurd wrong both.1⟩
    next right =>
      rw [and_iff_right right]
      split
      next now =>
        rw [now_empty found now right]
        exact ⟨fun _ _ member => absurd member List.not_mem_nil, fun _ => ⟨_, rfl⟩⟩
      next => rw [compiles_bind, compileArgs_compiles]

theorem compile_compiles (entity : EdmEntity) (expr : Expr) : Compiles (compile entity expr) ↔ Valid entity expr := by
  induction expr with
  | property name =>
    rw [compile, Valid, ← findProperty_isSome, resolveProperty]
    cases findProperty entity name with
    | none => exact ⟨fun done => absurd done compiles_error, fun some => absurd some (by simp)⟩
    | some prop => exact ⟨fun _ => ⟨prop, rfl⟩, fun _ => ⟨_, rfl⟩⟩
  | literal value => exact ⟨fun _ => trivial, fun _ => ⟨_, rfl⟩⟩
  | unary op child inner =>
    cases op
    rw [compile, compiles_bind, inner, Valid]
  | binary op left right first last =>
    rw [compile, Valid]
    cases form : binaryForm op left right with
    | testRight test =>
      rw [binaryForm_nullLeft form]
      exact compiles_bind.trans (last.trans (and_iff_right trivial).symm)
    | testLeft test =>
      rw [binaryForm_nullRight form]
      exact compiles_bind.trans (first.trans (and_iff_left trivial).symm)
    | literalLeft value =>
      rw [binaryForm_left form]
      exact compiles_bind.trans (last.trans (and_iff_right trivial).symm)
    | literalRight value =>
      rw [binaryForm_right form]
      exact compiles_bind.trans (first.trans (and_iff_left trivial).symm)
    | general => exact compiles_both.trans (and_congr first last)
  | functionCall name args inner =>
    rw [compileCall_compiles, Valid, allValid_iff]
    exact and_congr_right fun _ => forall₂_congr inner

/-- Type names lex on their own, and the supported ones have no quoted identifiers. -/
def PlainTypes (entity : EdmEntity) : Prop :=
  ∀ prop ∈ entity.properties, WellFormedType prop.duckdbType ∧
    (prop.edmType ≠ .unsupported → ∀ name, Sql.Token.ident name ∉ (Sql.lex prop.duckdbType).getD [])

/-- The spelling in the catalog of a property that the filter names. -/
def Names (entity : EdmEntity) (expr : Expr) (name : Str) : Prop :=
  ∃ prop ∈ entity.properties, prop.name = name ∧ ∃ mention ∈ properties expr, sameName prop.name mention

/-- Where an identifier in a lexeme can come from. -/
def Traced (entity : EdmEntity) (expr : Expr) : Lexeme → Prop
  | .column name => Names entity expr name
  | .typeName name => ComparedType entity name
  | .source _ _ => False
  | _ => True

theorem Names.mono {entity : EdmEntity} {part whole : Expr} {name : Str} (names : Names entity part name)
    (inside : properties part ⊆ properties whole) : Names entity whole name := by
  obtain ⟨prop, member, spelled, mention, named, same⟩ := names
  exact ⟨prop, member, spelled, mention, inside named, same⟩

theorem Traced.mono {entity : EdmEntity} {part whole : Expr} {lexeme : Lexeme} (traced : Traced entity part lexeme)
    (inside : properties part ⊆ properties whole) : Traced entity whole lexeme := by
  cases lexeme with
  | column name => exact Names.mono traced inside
  | _ => exact traced

theorem literalLexemes_traced {entity : EdmEntity} (expr : Expr) {target : Str}
    (typed : plainTarget target ∨ ComparedType entity target) (value : LiteralExpr) :
    ∀ lexeme ∈ literalLexemes target value, Traced entity expr lexeme := by
  cases value with
  | string value =>
    rw [literalLexemes]
    split
    next => simp [Traced]
    next cast => simp [castLexemes, Traced, typed.resolve_left cast]
  | _ => simp [literalLexemes, Traced]

theorem joinedLexemes_traced {entity : EdmEntity} {expr : Expr} (op : BinaryOp) {left right : List Lexeme}
    (first : ∀ lexeme ∈ left, Traced entity expr lexeme) (last : ∀ lexeme ∈ right, Traced entity expr lexeme) :
    ∀ lexeme ∈ joinedLexemes op left right, Traced entity expr lexeme := by
  have operator : Traced entity expr (operatorLexeme op) := by
    cases op with
    | _ => trivial
  intro lexeme member
  unfold joinedLexemes at member
  split at member
  · simp only [List.mem_cons, List.mem_append, List.not_mem_nil, or_false] at member
    rcases member with rfl | (inside | rfl | inside) | rfl
    · trivial
    · exact first lexeme inside
    · exact operator
    · exact last lexeme inside
    · trivial
  · simp only [List.mem_append, List.mem_cons] at member
    rcases member with inside | rfl | inside
    · exact first lexeme inside
    · exact operator
    · exact last lexeme inside

theorem nullTestLexemes_traced (entity : EdmEntity) (expr : Expr) (op : BinaryOp) :
    ∀ lexeme ∈ nullTestLexemes op, Traced entity expr lexeme := by
  cases op <;> simp [nullTestLexemes, Traced]

private theorem argLexemes_traced {entity : EdmEntity} {expr : Expr} {args : List Expr}
    (each : ∀ arg ∈ args, ∀ lexeme ∈ exprLexemes entity arg, Traced entity expr lexeme) :
    ∀ lexeme ∈ argLexemes entity args, Traced entity expr lexeme := by
  induction args with
  | nil => exact nofun
  | cons arg others ih =>
    obtain ⟨here, later⟩ := List.forall_mem_cons.mp each
    cases others with
    | nil => exact here
    | cons next others =>
      rw [argLexemes]
      intro lexeme member
      rcases List.mem_append.mp member with inside | inside
      · exact here lexeme inside
      · rcases List.mem_cons.mp inside with rfl | inside
        · trivial
        · exact ih later lexeme inside

theorem exprLexemes_traced (entity : EdmEntity) (expr : Expr) (valid : Valid entity expr) :
    ∀ lexeme ∈ exprLexemes entity expr, Traced entity expr lexeme := by
  induction expr with
  | property name =>
    obtain ⟨prop, found⟩ := findProperty_isSome.mpr valid
    obtain ⟨member, same⟩ := findProperty_mem found
    intro lexeme listed
    rw [exprLexemes, columnOf, found] at listed
    cases List.mem_singleton.mp listed
    exact ⟨prop, member, rfl, name, List.mem_singleton_self name, same⟩
  | literal value => exact literalLexemes_traced _ (.inl (.inl rfl)) value
  | unary op child inner =>
    cases op
    intro lexeme member
    simp only [exprLexemes, List.mem_cons, List.mem_append, List.not_mem_nil, or_false] at member
    rcases member with rfl | rfl | inside | rfl
    · trivial
    · trivial
    · exact inner valid lexeme inside
    · trivial
  | binary op left right first last =>
    have before : ∀ lexeme ∈ exprLexemes entity left, Traced entity (.binary op left right) lexeme := fun lexeme member =>
      (first valid.1 lexeme member).mono (List.subset_append_left _ _)
    have after : ∀ lexeme ∈ exprLexemes entity right, Traced entity (.binary op left right) lexeme := fun lexeme member =>
      (last valid.2 lexeme member).mono (List.subset_append_right _ _)
    have typed := fun other => literalLexemes_traced (.binary op left right) (resolveLiteralType_compared entity other)
    rw [exprLexemes]
    cases binaryForm op left right with
    | testRight test => exact List.forall_mem_append.mpr ⟨after, nullTestLexemes_traced entity _ op⟩
    | testLeft test => exact List.forall_mem_append.mpr ⟨before, nullTestLexemes_traced entity _ op⟩
    | literalLeft value => exact joinedLexemes_traced op (typed right value) after
    | literalRight value => exact joinedLexemes_traced op before (typed left value)
    | general => exact joinedLexemes_traced op before after
  | functionCall name args inner =>
    have each : ∀ arg ∈ args, ∀ lexeme ∈ exprLexemes entity arg, Traced entity (.functionCall name args) lexeme := by
      intro arg member lexeme listed
      apply (inner arg member (allValid_iff.mp valid.2 arg member) lexeme listed).mono
      intro mention named
      exact mem_allProperties.mpr ⟨arg, member, named⟩
    intro lexeme member
    simp only [exprLexemes, List.mem_cons, List.mem_append, List.not_mem_nil, or_false] at member
    rcases member with rfl | rfl | inside | rfl
    · trivial
    · trivial
    · exact argLexemes_traced each lexeme inside
    · trivial

private theorem ident_number (name : Str) (negative : Bool) (digits : Str) : Sql.Token.ident name ∉ numberTokens negative digits := by
  cases negative <;> simp [numberTokens]

private theorem ident_word (name : Str) {type : Str} (word : Sql.isWord type) :
    Sql.Token.ident name ∉ (Sql.lex type).getD [] := by
  rw [(Sql.lexes_word type word).lex]
  simp

theorem Traced.ident {entity : EdmEntity} {expr : Expr} {lexeme : Lexeme} (types : PlainTypes entity)
    (traced : Traced entity expr lexeme) {name : Str} (listed : Sql.Token.ident name ∈ lexeme.tokens) : Names entity expr name := by
  cases lexeme with
  | column column =>
    cases List.mem_singleton.mp listed
    exact traced
  | typeName type =>
    rw [Lexeme.tokens] at listed
    rcases traced with rfl | rfl | ⟨prop, member, supported, rfl⟩
    · exact absurd listed (ident_word name (by decide))
    · exact absurd listed (ident_word name (by decide))
    · exact absurd listed ((types prop member).2 supported name)
  | source word path => exact traced.elim
  | integer value => exact absurd listed (ident_number name _ _)
  | float value => exact absurd listed (ident_number name _ _)
  | _ => simp [Lexeme.tokens] at listed

/-- A filter compiles exactly if all its names are known; otherwise a parse
exception is raised. Every identifier of the compiled text is the catalog's
spelling of a property that the filter names. -/
theorem compile_valid (entity : EdmEntity) (expr : Expr) :
    ((∃ text, compile entity expr = .ok text) ↔ Valid entity expr) ∧
      (¬ Valid entity expr → ∃ message, compile entity expr = .error (.odataParse message)) ∧
      (PlainTypes entity → ∀ text, compile entity expr = .ok text → ∃ tokens, Sql.lex text = some tokens ∧
        ∀ name, Sql.Token.ident name ∈ tokens → Names entity expr name) := by
  refine ⟨compile_compiles entity expr, ?_, ?_⟩
  · intro invalid
    cases result : compile entity expr with
    | ok text => exact absurd ((compile_compiles entity expr).mp ⟨text, result⟩) invalid
    | error failure =>
      obtain ⟨message, rfl⟩ := compile_reported entity expr failure result
      exact ⟨message, rfl⟩
  · intro types text done
    refine ⟨_, (compile_lexes (fun prop member => (types prop member).1) expr text done).lex, ?_⟩
    intro name listed
    obtain ⟨lexeme, member, inside⟩ := List.mem_flatMap.mp listed
    exact (exprLexemes_traced entity expr ((compile_compiles entity expr).mp ⟨text, done⟩) lexeme member).ident types inside

private def people : EdmEntity :=
  { schema := "main".toList, name := "people".toList, properties := [{ name := "Age".toList, duckdbType := "BIGINT".toList }] }

/-- `age eq null` compiles for a column `Age`. -/
theorem compile_valid_people :
    compile people (.binary .eq (.property "age".toList) (.literal .null)) = .ok "\"Age\" IS NULL".toList ∧
      ∃ tokens, Sql.lex "\"Age\" IS NULL".toList = some tokens ∧
        ∀ name, Sql.Token.ident name ∈ tokens → Names people (.binary .eq (.property "age".toList) (.literal .null)) name := by
  have types : PlainTypes people := by
    intro prop member
    cases List.mem_singleton.mp member
    exact ⟨.bigint, fun _ name => ident_word name (by decide)⟩
  have done : compile people (.binary .eq (.property "age".toList) (.literal .null)) = .ok "\"Age\" IS NULL".toList := rfl
  exact ⟨done, (compile_valid people _).2.2 types _ done⟩

end DuckdbOdata.Validation
