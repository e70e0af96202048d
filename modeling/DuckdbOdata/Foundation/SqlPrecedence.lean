import DuckdbOdata.Foundation.SqlGrammar

/-! When printed conditions are read back. `Reads` says what the parser makes of
the tokens of one operand in any context, and under which condition that is the
intended tree; every way to build a condition has a rule. -/

namespace Sql
open Text

/-- How the tokens of an expression end: closed by themselves, in a comparison,
or in a null test. -/
inductive Shape
  | solid | comparison | test
deriving DecidableEq

/-- Trees that are not a comparison or a null test. -/
def Tree.Solid : Tree → Prop
  | .compare _ _ _ => False
  | .nullTest _ _ => False
  | _ => True

/-- The operand that `tree` completes, and whether it is a comparison. -/
def fed (slot : Slot) (tree : Tree) : Tree × Bool :=
  match slot with
  | none => (tree, false)
  | some (left, symbol) => (.compare symbol left tree, true)

theorem feed_eq (slot : Slot) (tree : Tree) : feed slot tree = .operand (fed slot tree).1 (fed slot tree).2 := by
  cases slot <;> rfl

/-- A level after one of its operands. -/
def Level.after (level : Level) (found : Tree × Bool) : Level := { level with current := .operand found.1 found.2 }

/-- Where an operand is expected for `slot`, the parser makes `take slot` of the
tokens. That is the intended `tree` under the condition `separated`. -/
structure Reads (tokens : List Token) (take : Slot → Option (Tree × Bool)) (tree : Tree) (separated : Prop)
    (shape : Shape) : Prop where
  runs : ∀ level outer slot, level.current = .expecting slot →
    run (.parsing level outer) tokens = (take slot).map fun found => .parsing (level.after found) outer
  whole : separated → take none = some (tree, decide (shape = .comparison))
  exact' : ∀ compared, take none = some (tree, compared) → separated
  solid : shape = .solid → ∃ inner : Option Tree, (∀ found, inner = some found → found.Solid) ∧
    ∀ slot, take slot = inner.map (fed slot)
  right : ∀ slot symbol left right compared, take slot = some (.compare symbol left right, compared) → right.Solid
  root : shape ≠ .solid → ¬ tree.Solid

/-- The tree of the whole text, if it has one. -/
def treeOf (take : Slot → Option (Tree × Bool)) : Option Tree := (take none).map (·.1)

section Rules

variable {tokens first last : List Token} {take takeFirst takeLast : Slot → Option (Tree × Bool)}
variable {tree left right : Tree} {separated separatedFirst separatedLast : Prop} {shape shapeFirst shapeLast : Shape}

theorem Reads.tree_iff (reads : Reads tokens take tree separated shape) : treeOf take = some tree ↔ separated := by
  constructor
  · intro same
    obtain ⟨⟨found, compared⟩, taken, rfl⟩ := Option.map_eq_some_iff.mp same
    exact reads.exact' compared taken
  · intro holds
    simp [treeOf, reads.whole holds]

/-- Operands that end at their own last token. -/
theorem Reads.ofSolid (inner : Option Tree)
    (runs : ∀ level outer slot, level.current = .expecting slot →
      run (.parsing level outer) tokens = inner.map fun found => .parsing (level.after (fed slot found)) outer)
    (exact' : inner = some tree ↔ separated) (solid : ∀ found, inner = some found → found.Solid) :
    Reads tokens (fun slot => inner.map (fed slot)) tree separated .solid where
  runs level outer slot current := by
    rw [runs level outer slot current]
    cases inner <;> rfl
  whole holds := by
    rw [exact'.mpr holds]
    rfl
  exact' compared taken := by
    obtain ⟨found, known, same⟩ := Option.map_eq_some_iff.mp taken
    cases same
    exact exact'.mp known
  solid _ := ⟨inner, solid, fun _ => rfl⟩
  right slot symbol left right compared taken := by
    obtain ⟨found, known, same⟩ := Option.map_eq_some_iff.mp taken
    cases slot with
    | none =>
      cases same
      exact (solid _ known).elim
    | some waiting =>
      cases same
      exact solid _ known
  root other := absurd rfl other

/-- An operand that is always read as intended. -/
theorem Reads.leaf (runs : ∀ level outer slot, level.current = .expecting slot →
      run (.parsing level outer) tokens = some (.parsing (level.after (fed slot tree)) outer))
    (solid : tree.Solid) : Reads tokens (fun slot => some (fed slot tree)) tree True .solid :=
  Reads.ofSolid (some tree) (fun level outer slot current => by simp [runs level outer slot current])
    (by simp) (fun found same => by cases same; exact solid)

private theorem parsing_feed (level : Level) (slot : Slot) (tree : Tree) :
    ({ level with current := feed slot tree } : Level) = level.after (fed slot tree) := by
  rw [feed_eq]
  rfl

private theorem step_expecting {level : Level} {slot : Slot} (current : level.current = .expecting slot)
    (outer : List (Opening × Level)) (token : Token) :
    step (.parsing level outer) token = stepExpecting level outer slot token := by
  simp [step, current]

private theorem supply_expecting {level : Level} {slot : Slot} (current : level.current = .expecting slot)
    (opening : Opening) (outer : List (Opening × Level)) (tree : Tree) :
    supply tree ((opening, level) :: outer) = some (.parsing (level.after (fed slot tree)) outer) := by
  simp [supply, current, parsing_feed]

private theorem supply_named (level : Level) {slot : Slot} {name : Str} (current : level.current = .named slot name)
    (opening : Opening) (outer : List (Opening × Level)) (tree : Tree) :
    supply tree ((opening, level) :: outer) = some (.parsing (level.after (fed slot tree)) outer) := by
  simp [supply, current, parsing_feed]

theorem Reads.ident (name : Str) : Reads [.ident name] (fun slot => some (fed slot (.column name))) (.column name) True .solid :=
  .leaf (fun level outer slot current => by
    simp [step_expecting current, stepExpecting, parsing_feed]) trivial

theorem Reads.str (value : Str) : Reads [.str value] (fun slot => some (fed slot (.string value))) (.string value) True .solid :=
  .leaf (fun level outer slot current => by
    simp [step_expecting current, stepExpecting, parsing_feed]) trivial

theorem Reads.constant {name : Str} (constant : isConstant name) :
    Reads [.word name] (fun slot => some (fed slot (.word name))) (.word name) True .solid :=
  .leaf (fun level outer slot current => by
    simp [step_expecting current, stepExpecting, constant, parsing_feed]) trivial

theorem Reads.num (digits : Str) :
    Reads [.num digits] (fun slot => some (fed slot (.number false digits))) (.number false digits) True .solid :=
  .leaf (fun level outer slot current => by
    simp [step_expecting current, stepExpecting, parsing_feed]) trivial

theorem Reads.minus (digits : Str) :
    Reads [.op ['-'], .num digits] (fun slot => some (fed slot (.number true digits))) (.number true digits) True .solid :=
  .leaf (fun level outer slot current => by
    simp only [run_cons, run_nil, step_expecting current, stepExpecting, ite_true, Option.bind_some]
    simp [step, feed_eq, Level.after]) trivial

/-- A comparison: its left operand may be a null test, its right one must be closed. -/
theorem Reads.compare {symbol : Str} (comparison : isComparison symbol)
    (before : Reads first takeFirst left separatedFirst shapeFirst) (after : Reads last takeLast right separatedLast shapeLast) :
    Reads (first ++ .op symbol :: last)
      (fun slot => (takeFirst slot).bind fun found => if found.2 then none else takeLast (some (found.1, symbol)))
      (.compare symbol left right) (shapeFirst ≠ .comparison ∧ shapeLast = .solid ∧ separatedFirst ∧ separatedLast)
      .comparison where
  runs level outer slot current := by
    rw [run_append, before.runs level outer slot current]
    cases takeFirst slot with
    | none => rfl
    | some found =>
      obtain ⟨found, compared⟩ := found
      cases compared with
      | true => simp [step, Level.after, stepOperand]
      | false =>
        have stepped : step (.parsing (level.after (found, false)) outer) (.op symbol) =
            some (.parsing { level with current := .expecting (some (found, symbol)) } outer) := by
          simp [step, Level.after, stepOperand, comparison]
        simp only [Option.map_some, Option.bind_some, run_cons, stepped, Bool.false_eq_true, ite_false]
        exact after.runs _ outer _ rfl
  whole holds := by
    obtain ⟨other, closed, firstHolds, lastHolds⟩ := holds
    obtain ⟨inner, -, taken⟩ := after.solid closed
    have known : inner = some right := by
      have found := after.whole lastHolds
      rw [taken none] at found
      obtain ⟨value, known, same⟩ := Option.map_eq_some_iff.mp found
      exact known.trans (congrArg some (congrArg Prod.fst same))
    simp [before.whole firstHolds, other, taken, known, fed]
  exact' compared taken := by
    obtain ⟨⟨found, flag⟩, takenFirst, rest⟩ := Option.bind_eq_some_iff.mp taken
    cases flag with
    | true => simp at rest
    | false =>
      simp only [Bool.false_eq_true, ite_false] at rest
      have closed : shapeLast = .solid := by
        by_contra other
        exact after.root other (after.right _ _ _ _ _ rest)
      obtain ⟨inner, -, takenLast⟩ := after.solid closed
      rw [takenLast] at rest
      obtain ⟨value, known, same⟩ := Option.map_eq_some_iff.mp rest
      simp only [fed, Prod.mk.injEq, Tree.compare.injEq, true_and] at same
      obtain ⟨⟨rfl, rfl⟩, rfl⟩ := same
      have firstHolds := before.exact' false takenFirst
      have flag := before.whole firstHolds
      rw [takenFirst] at flag
      simp only [Option.some.injEq, Prod.mk.injEq, true_and] at flag
      exact ⟨by simpa using flag, closed, firstHolds, after.exact' false (by simp [takenLast, known, fed])⟩
  solid other := by cases other
  right slot symbol' left' right' compared taken := by
    obtain ⟨⟨found, flag⟩, -, rest⟩ := Option.bind_eq_some_iff.mp taken
    cases flag with
    | true => simp at rest
    | false => exact after.right _ _ _ _ _ (by simpa using rest)
  root _ := id

/-- A null test of any operand. -/
theorem Reads.test (negated : Bool) {tail : List Token}
    (tests : ∀ (level : Level) outer found, run (.parsing (level.after found) outer) tail =
      some (.parsing (level.after (.nullTest negated found.1, false)) outer))
    (operand : Reads tokens take tree separated shape) :
    Reads (tokens ++ tail) (fun slot => (take slot).map fun found => (.nullTest negated found.1, false))
      (.nullTest negated tree) separated .test where
  runs level outer slot current := by
    rw [run_append, operand.runs level outer slot current]
    cases take slot with
    | none => rfl
    | some found => simpa using tests level outer found
  whole holds := by simp [operand.whole holds]
  exact' compared taken := by
    obtain ⟨⟨found, flag⟩, known, same⟩ := Option.map_eq_some_iff.mp taken
    cases same
    exact operand.exact' flag known
  solid other := by cases other
  right slot symbol left right compared taken := by
    obtain ⟨found, -, same⟩ := Option.map_eq_some_iff.mp taken
    cases same
  root _ := id

private theorem step_is (level : Level) (outer : List (Opening × Level)) (found : Tree × Bool) :
    step (.parsing (level.after found) outer) (.word "IS".toList) =
      some (.parsing { level with current := .testing found.1 false } outer) := rfl

private theorem step_testing_not (level : Level) (outer : List (Opening × Level)) (tree : Tree) :
    step (.parsing { level with current := .testing tree false } outer) (.word "NOT".toList) =
      some (.parsing { level with current := .testing tree true } outer) := rfl

private theorem step_testing_null (level : Level) (outer : List (Opening × Level)) (tree : Tree) (negated : Bool) :
    step (.parsing { level with current := .testing tree negated } outer) (.word "NULL".toList) =
      some (.parsing (level.after (.nullTest negated tree, false)) outer) := rfl

theorem Reads.isNull (operand : Reads tokens take tree separated shape) :
    Reads (tokens ++ [.word "IS".toList, .word "NULL".toList])
      (fun slot => (take slot).map fun found => (.nullTest false found.1, false)) (.nullTest false tree) separated .test :=
  .test false (fun level outer found => by
    simp only [run_cons, run_nil, step_is, step_testing_null, Option.bind_some]) operand

theorem Reads.isNotNull (operand : Reads tokens take tree separated shape) :
    Reads (tokens ++ [.word "IS".toList, .word "NOT".toList, .word "NULL".toList])
      (fun slot => (take slot).map fun found => (.nullTest true found.1, false)) (.nullTest true tree) separated .test :=
  .test true (fun level outer found => by
    simp only [run_cons, run_nil, step_is, step_testing_not, step_testing_null, Option.bind_some]) operand

private theorem step_open {level : Level} {slot : Slot} (current : level.current = .expecting slot)
    (outer : List (Opening × Level)) :
    step (.parsing level outer) (.punct '(') = some (.parsing {} ((.group, level) :: outer)) := by
  simp [step_expecting current, stepExpecting]

private theorem step_close {level inner : Level} {slot : Slot} (current : level.current = .expecting slot)
    (outer : List (Opening × Level)) (found : Tree × Bool) :
    step (.parsing (inner.after found) ((.group, level) :: outer)) (.punct ')') =
      some (.parsing (level.after (fed slot (inner.whole found.1))) outer) := by
  simp only [step, Level.after, stepOperand, ite_true, close]
  exact supply_expecting current .group outer _

/-- The tree of a parenthesized conjunction or disjunction. -/
def both (node : Tree → Tree → Tree) (first last : Option Tree) : Option Tree :=
  first.bind fun left => last.map fun right => node left right

private theorem Reads.connective {word : Str} {node : Tree → Tree → Tree} (waiting : Tree → Level)
    (steps : ∀ outer found, step (.parsing (({} : Level).after found) outer) (.word word) =
      some (.parsing (waiting found.1) outer))
    (expecting : ∀ found, (waiting found).current = .expecting none)
    (combined : ∀ left right compared, ((waiting left).after (right, compared)).whole right = node left right)
    (solid : ∀ left right, (node left right).Solid)
    (injective : ∀ a b c d, node a b = node c d → a = c ∧ b = d)
    (before : Reads first takeFirst left separatedFirst shapeFirst) (after : Reads last takeLast right separatedLast shapeLast) :
    Reads (.punct '(' :: (first ++ .word word :: last ++ [.punct ')']))
      (fun slot => (both node (treeOf takeFirst) (treeOf takeLast)).map (fed slot)) (node left right)
      (separatedFirst ∧ separatedLast) .solid := by
  apply Reads.ofSolid
  · intro level outer slot current
    rw [run_cons, step_open current, Option.bind_some, List.append_assoc, run_append,
      before.runs {} ((.group, level) :: outer) none rfl]
    cases foundFirst : takeFirst none with
    | none => simp [both, treeOf, foundFirst]
    | some found =>
      simp only [Option.map_some, Option.bind_some, List.cons_append, run_cons, steps]
      rw [run_append, after.runs _ _ none (expecting found.1)]
      cases foundLast : takeLast none with
      | none => simp [both, treeOf, foundFirst, foundLast]
      | some other =>
        obtain ⟨other, compared⟩ := other
        have whole : (waiting found.1).whole other = node found.1 other := combined found.1 other compared
        simp [both, treeOf, foundFirst, foundLast, step_close current, whole]
  · rw [← before.tree_iff, ← after.tree_iff]
    constructor
    · intro same
      obtain ⟨found, knownFirst, more⟩ := Option.bind_eq_some_iff.mp same
      obtain ⟨other, knownLast, equal⟩ := Option.map_eq_some_iff.mp more
      obtain ⟨rfl, rfl⟩ := injective _ _ _ _ equal
      exact ⟨knownFirst, knownLast⟩
    · rintro ⟨knownFirst, knownLast⟩
      simp [both, knownFirst, knownLast]
  · intro found same
    obtain ⟨a, -, more⟩ := Option.bind_eq_some_iff.mp same
    obtain ⟨b, -, rfl⟩ := Option.map_eq_some_iff.mp more
    exact solid a b

theorem Reads.and (before : Reads first takeFirst left separatedFirst shapeFirst)
    (after : Reads last takeLast right separatedLast shapeLast) :
    Reads (.punct '(' :: (first ++ .word "AND".toList :: last ++ [.punct ')']))
      (fun slot => (both .and (treeOf takeFirst) (treeOf takeLast)).map (fed slot)) (.and left right)
      (separatedFirst ∧ separatedLast) .solid :=
  .connective (fun found => { conjunct := some found })
    (fun _ _ => rfl) (fun _ => rfl) (fun _ _ _ => rfl) (fun _ _ => trivial) (fun _ _ _ _ same => by cases same; exact ⟨rfl, rfl⟩) before after

theorem Reads.or (before : Reads first takeFirst left separatedFirst shapeFirst)
    (after : Reads last takeLast right separatedLast shapeLast) :
    Reads (.punct '(' :: (first ++ .word "OR".toList :: last ++ [.punct ')']))
      (fun slot => (both .or (treeOf takeFirst) (treeOf takeLast)).map (fed slot)) (.or left right)
      (separatedFirst ∧ separatedLast) .solid :=
  .connective (fun found => { disjunct := some found })
    (fun _ _ => rfl) (fun _ => rfl) (fun _ _ _ => rfl) (fun _ _ => trivial) (fun _ _ _ _ same => by cases same; exact ⟨rfl, rfl⟩) before after

theorem Reads.not (operand : Reads tokens take tree separated shape) :
    Reads (.punct '(' :: .word "NOT".toList :: (tokens ++ [.punct ')']))
      (fun slot => ((treeOf take).map .not).map (fed slot)) (.not tree) separated .solid := by
  apply Reads.ofSolid
  · intro level outer slot current
    have negated : step (.parsing {} ((.group, level) :: outer)) (.word "NOT".toList) =
        some (.parsing { nots := 1 } ((.group, level) :: outer)) := by
      simp [step, stepExpecting, isConstant]
    rw [run_cons, step_open current, Option.bind_some, run_cons, negated, Option.bind_some, run_append,
      operand.runs { nots := 1 } _ none rfl]
    cases found : take none with
    | none => simp [treeOf, found]
    | some inner =>
      simp [treeOf, found, step_close current, Level.whole, Level.conjoin, negate]
  · rw [← operand.tree_iff]
    cases treeOf take <;> simp
  · intro found same
    obtain ⟨inner, -, rfl⟩ := Option.map_eq_some_iff.mp same
    trivial

/-- A word that starts a call. -/
def isFunction (name : Str) : Bool := !isConstant name && name != "NOT".toList && name != "CAST".toList

private theorem step_named {level : Level} {slot : Slot} {name : Str} (current : level.current = .expecting slot)
    (constant : isConstant name = false) (not : name ≠ "NOT".toList) (outer : List (Opening × Level)) :
    step (.parsing level outer) (.word name) = some (.parsing { level with current := .named slot name } outer) := by
  simp only [step_expecting current, stepExpecting, constant, not, Bool.false_eq_true, ite_false]

private theorem after_named (level : Level) (slot : Slot) (name : Str) (found : Tree × Bool) :
    ({ level with current := .named slot name } : Level).after found = level.after found := rfl

theorem Reads.cast (value : Str) {type : List Token} (balanced : Balanced type) :
    Reads (.word "CAST".toList :: .punct '(' :: .str value :: .word "AS".toList :: (type ++ [.punct ')']))
      (fun slot => some (fed slot (.cast (.string value) type))) (.cast (.string value) type) True .solid := by
  refine .leaf ?_ trivial
  intro level outer slot current
  let named : Level := { level with current := .named slot "CAST".toList }
  have opened : step (.parsing named outer) (.punct '(') = some (.parsing {} ((.cast, named) :: outer)) := by
    simp [step, named, openingOf]
  have filled : step (.parsing {} ((.cast, named) :: outer)) (.str value) =
      some (.parsing (({} : Level).after (.string value, false)) ((.cast, named) :: outer)) := rfl
  have typed : step (.parsing (({} : Level).after (.string value, false)) ((.cast, named) :: outer)) (.word "AS".toList) =
      some (.typing (.string value) 0 [] ((.cast, named) :: outer)) := by
    simp [step, Level.after, stepOperand, Level.whole, Level.conjoin, negate]
  have closed : step (.typing (.string value) 0 type ((.cast, named) :: outer)) (.punct ')') =
      some (.parsing (level.after (fed slot (.cast (.string value) type))) outer) := by
    simp only [step, stepTyping, and_self, ite_true, balanced.1, ite_false]
    rw [supply_named named rfl, after_named]
  rw [run_cons, step_named current (by decide) (by decide), Option.bind_some, run_cons, opened, Option.bind_some, run_cons,
    filled, Option.bind_some, run_cons, typed, Option.bind_some, run_append, run_typing _ _ _ _ _ balanced.2]
  simp [closed]

/-- Several operands, by the tokens, the reading and the intended tree of each. -/
structure Argument where
  tokens : List Token
  take : Slot → Option (Tree × Bool)
  tree : Tree
  separated : Prop
  shape : Shape
  reads : Reads tokens take tree separated shape

private theorem run_argument (argument : Argument) (name : Str) (acc : List Tree) (level : Level)
    (outer : List (Opening × Level)) (token : Token) :
    run (.parsing {} ((.call name acc, level) :: outer)) (argument.tokens ++ [token]) =
      (argument.take none).bind fun found => step (.parsing (({} : Level).after found) ((.call name acc, level) :: outer)) token := by
  rw [run_append, argument.reads.runs {} _ none rfl]
  cases argument.take none <;> simp

private theorem run_arguments (arguments : List Argument) (nonempty : arguments ≠ []) (name : Str) (acc : List Tree)
    (level : Level) (outer : List (Opening × Level)) :
    run (.parsing {} ((.call name acc, level) :: outer))
        ([Token.punct ','].intercalate (arguments.map (·.tokens)) ++ [.punct ')']) =
      (arguments.mapM fun argument => treeOf argument.take).bind fun trees =>
        supply (.call name (acc.reverse ++ trees)) ((.group, level) :: outer) := by
  induction arguments generalizing acc with
  | nil => exact absurd rfl nonempty
  | cons argument others ih =>
    have whole : ∀ (current : Current) (tree : Tree), ({ current } : Level).whole tree = tree := fun _ _ => rfl
    cases others with
    | nil =>
      have single := run_argument argument name acc level outer (.punct ')')
      simp only [List.map_cons, List.map_nil, List.intercalate, List.intersperse, List.flatten_cons, List.flatten_nil,
        List.append_nil, single, List.mapM_cons, List.mapM_nil, treeOf]
      cases argument.take none with
      | none => rfl
      | some found => simp [step, Level.after, stepOperand, close, whole]
    | cons next others =>
      have more := ih (by simp)
      have first := run_argument argument name acc level outer (.punct ',')
      have text : [Token.punct ','].intercalate ((argument :: next :: others).map (·.tokens)) ++ [.punct ')'] =
          (argument.tokens ++ [.punct ',']) ++
            ([Token.punct ','].intercalate ((next :: others).map (·.tokens)) ++ [.punct ')']) := by
        simp [List.intercalate]
      rw [text, run_append, first, List.mapM_cons]
      cases taken : argument.take none with
      | none => simp [treeOf, taken]
      | some found =>
        have stepped : step (.parsing (({} : Level).after found) ((.call name acc, level) :: outer)) (.punct ',') =
            some (.parsing {} ((.call name (found.1 :: acc), level) :: outer)) := by
          simp [step, Level.after, stepOperand, whole]
        simp only [Option.bind_some, stepped, more, treeOf, taken, Option.map_some]
        cases (next :: others).mapM fun argument => (argument.take none).map (·.1) <;> simp

theorem Reads.call {name : Str} (function : isFunction name) (arguments : List Argument) :
    Reads (.word name :: .punct '(' :: ([Token.punct ','].intercalate (arguments.map (·.tokens)) ++ [.punct ')']))
      (fun slot => ((arguments.mapM fun argument => treeOf argument.take).map (.call name)).map (fed slot))
      (.call name (arguments.map (·.tree))) (∀ argument ∈ arguments, argument.separated) .solid := by
  simp only [isFunction, Bool.and_eq_true, Bool.not_eq_true', bne_iff_ne] at function
  obtain ⟨⟨constant, not⟩, cast⟩ := function
  apply Reads.ofSolid
  · intro level outer slot current
    let named : Level := { level with current := .named slot name }
    have opened : step (.parsing named outer) (.punct '(') = some (.parsing {} ((.call name [], named) :: outer)) := by
      have opens : openingOf name = .call name [] := if_neg cast
      simp [step, named, opens]
    have supplied : ∀ trees, supply (.call name trees) ((.group, named) :: outer) =
        some (.parsing (level.after (fed slot (.call name trees))) outer) := by
      intro trees
      rw [supply_named named rfl, after_named]
    rw [run_cons, step_named current constant not, Option.bind_some, run_cons, opened, Option.bind_some]
    by_cases none : arguments = []
    · subst none
      have closed : step (.parsing {} ((.call name [], named) :: outer)) (.punct ')') =
          supply (.call name []) ((.group, named) :: outer) := by
        simp [step, stepExpecting]
      simp [List.intercalate, closed, supplied]
    · rw [run_arguments arguments none]
      cases arguments.mapM fun argument => treeOf argument.take with
      | none => rfl
      | some trees => simp [supplied]
  · have each : (∀ argument ∈ arguments, treeOf argument.take = some argument.tree) ↔ ∀ argument ∈ arguments, argument.separated :=
      forall₂_congr fun argument _ => argument.reads.tree_iff
    rw [← each, ← mapM_eq_some_map]
    constructor
    · intro same
      obtain ⟨trees, found, equal⟩ := Option.map_eq_some_iff.mp same
      cases equal
      exact found
    · intro found
      rw [found]
      rfl
  · intro found same
    obtain ⟨trees, -, rfl⟩ := Option.map_eq_some_iff.mp same
    trivial

end Rules

/-- A text is parsed as its only operand is read. -/
theorem Reads.parse {tokens : List Token} {take : Slot → Option (Tree × Bool)} {tree : Tree} {separated : Prop}
    {shape : Shape} (reads : Reads tokens take tree separated shape) : Sql.parse tokens = some tree ↔ separated := by
  rw [← reads.tree_iff, Sql.parse, reads.runs {} [] none rfl, treeOf]
  cases take none with
  | none => rfl
  | some found => simp [State.result, Level.after, Level.whole, Level.conjoin, negate]

end Sql
