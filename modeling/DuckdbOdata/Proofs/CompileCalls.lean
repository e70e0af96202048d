import Mathlib.Data.List.Perm.Subperm
import DuckdbOdata.Foundation.Recorded
import DuckdbOdata.Proofs.FilterPrinting
import DuckdbOdata.Proofs.Validation

/-! How often `Compile` is called on each node of a filter. The check for the
literal `null` compiles the other operand before it looks at the operator, so
an operator without a null test compiles that operand again. -/

namespace DuckdbOdata.CompileCalls
open Text SqlTokens Validation

/-- The way from the root: which child, at each level. -/
abbrev Position := List Nat

mutual
/-- `compile` with a record of the positions at which `Compile` is called. -/
def compileCalls (entity : EdmEntity) (position : Position) : Expr → Recorded Position Exn Str
  | .property name => do
    Recorded.note position
    Recorded.lift (resolveProperty entity name)
  | .literal value => do
    Recorded.note position
    pure (compileLiteral [] value)
  | .unary .not child => do
    Recorded.note position
    let inner ← compileCalls entity (position ++ [0]) child
    pure ("(NOT ".toList ++ inner ++ ")".toList)
  | .binary op left right => do
    Recorded.note position
    match left.literal?, right.literal? with
    | some .null, none => do
      let rhs ← compileCalls entity (position ++ [1]) right
      match nullTest op with
      | some test => pure (rhs ++ test)
      | none => do
        let rhs ← compileCalls entity (position ++ [1]) right
        pure (joined op (compileLiteral (resolveLiteralType entity right) .null) rhs)
    | none, some .null => do
      let lhs ← compileCalls entity (position ++ [0]) left
      match nullTest op with
      | some test => pure (lhs ++ test)
      | none => do
        let lhs ← compileCalls entity (position ++ [0]) left
        pure (joined op lhs (compileLiteral (resolveLiteralType entity left) .null))
    | some value, none => do
      let rhs ← compileCalls entity (position ++ [1]) right
      pure (joined op (compileLiteral (resolveLiteralType entity right) value) rhs)
    | none, some value => do
      let lhs ← compileCalls entity (position ++ [0]) left
      pure (joined op lhs (compileLiteral (resolveLiteralType entity left) value))
    | _, _ => do
      let lhs ← compileCalls entity (position ++ [0]) left
      let rhs ← compileCalls entity (position ++ [1]) right
      pure (joined op lhs rhs)
  | .functionCall name args => do
    Recorded.note position
    match findFunction name with
    | none => Recorded.lift (.error (unsupportedFunction name))
    | some entry =>
      if args.length < entry.minArgs ∨ entry.maxArgs < args.length then Recorded.lift (.error (wrongArguments name entry))
      else if toLower name = "now".toList then pure "now()".toList
      else do
        let texts ← compileArgsCalls entity position 0 args
        pure (entry.duckdbName ++ "(".toList ++ ", ".toList.intercalate texts ++ ")".toList)

/-- A literal argument is printed without a call of `Compile`. -/
def compileArgsCalls (entity : EdmEntity) (position : Position) : Nat → List Expr → Recorded Position Exn (List Str)
  | _, [] => pure []
  | index, arg :: others =>
    (match arg.literal? with
      | some value => pure (compileLiteral [] value)
      | none => compileCalls entity (position ++ [index]) arg) >>= fun text =>
    compileArgsCalls entity position (index + 1) others >>= fun texts =>
    pure (text :: texts)
end

/-- The calls of `Compile` for a whole filter, in order. -/
def calls (entity : EdmEntity) (expr : Expr) : List Position := (compileCalls entity [] expr).events

mutual
/-- The positions of all nodes. -/
def nodes (position : Position) : Expr → List Position
  | .property _ => [position]
  | .literal _ => [position]
  | .unary _ child => position :: nodes (position ++ [0]) child
  | .binary _ left right => position :: (nodes (position ++ [0]) left ++ nodes (position ++ [1]) right)
  | .functionCall _ args => position :: allNodes position 0 args

def allNodes (position : Position) : Nat → List Expr → List Position
  | _, [] => []
  | index, arg :: others => nodes (position ++ [index]) arg ++ allNodes position (index + 1) others
end

mutual
/-- Nothing is compiled twice: of the nodes that are reached, none without a null
test has the literal `null` beside an operand that compiles. -/
def Once (entity : EdmEntity) : Expr → Prop
  | .property _ => True
  | .literal _ => True
  | .unary _ child => Once entity child
  | .binary op left right =>
    match binaryForm op left right with
    | .testRight _ => Once entity right
    | .testLeft _ => Once entity left
    | .literalLeft value => Once entity right ∧ (value = .null → ¬ Valid entity right)
    | .literalRight value => Once entity left ∧ (value = .null → ¬ Valid entity left)
    | .general => Once entity left ∧ (Valid entity left → Once entity right)
  | .functionCall name args => Known name args.length → AllOnce entity args

def AllOnce (entity : EdmEntity) : List Expr → Prop
  | [] => True
  | arg :: others => Once entity arg ∧ (Valid entity arg → AllOnce entity others)
end

/-- Each node is compiled at most once, and so there are at most as many calls as
nodes. -/
def EachOnce (entity : EdmEntity) (expr : Expr) : Prop :=
  (calls entity expr).Nodup ∧ (calls entity expr).length ≤ (nodes [] expr).length

section
variable (entity : EdmEntity) (position : Position)

private theorem bind_again (result : Except Exn α) (next : α → Except Exn β) :
    (result >>= fun _ => result >>= next) = result >>= next := by
  cases result with
  | ok value => rfl
  | error failure => rfl

private theorem args_result (index : Nat) (args : List Expr)
    (each : ∀ arg ∈ args, ∀ position, (compileCalls entity position arg).result = compile entity arg) :
    (compileArgsCalls entity position index args).result = compileArgs entity args := by
  induction args generalizing index with
  | nil => rfl
  | cons arg others ih =>
    obtain ⟨here, later⟩ := List.forall_mem_cons.mp each
    rw [compileArgsCalls, compileArgs, Recorded.bind_result]
    simp only [Recorded.bind_result, ih (index + 1) later]
    cases literal : arg.literal? with
    | none =>
      simp only [here]
      rfl
    | some value =>
      rw [literal_eq literal]
      rfl

theorem compileCalls_result (expr : Expr) : (compileCalls entity position expr).result = compile entity expr := by
  induction expr generalizing position with
  | property name => rfl
  | literal value => rfl
  | unary op child inner =>
    cases op
    rw [compileCalls, Recorded.note_bind_result, Recorded.bind_result, inner, compile]
    rfl
  | binary op left right first last =>
    rw [compileCalls, Recorded.note_bind_result, compile, binaryForm]
    cases left.literal? with
    | none =>
      cases right.literal? with
      | none =>
        simp only [Recorded.bind_result, first, last]
        cases nullTest op <;> rfl
      | some value =>
        cases value with
        | null =>
          simp only [Recorded.bind_result, first]
          cases nullTest op with
          | none =>
            simp only [Recorded.bind_result, first]
            exact bind_again _ _
          | some test => rfl
        | _ =>
          simp only [Recorded.bind_result, first]
          cases nullTest op <;> rfl
    | some value =>
      cases right.literal? with
      | none =>
        cases value with
        | null =>
          simp only [Recorded.bind_result, last]
          cases nullTest op with
          | none =>
            simp only [Recorded.bind_result, last]
            exact bind_again _ _
          | some test => rfl
        | _ =>
          simp only [Recorded.bind_result, last]
          cases nullTest op <;> rfl
      | some other =>
        simp only [Recorded.bind_result, first, last]
        cases nullTest op <;> cases value <;> rfl
  | functionCall name args inner =>
    rw [compileCalls, Recorded.note_bind_result, compile]
    cases findFunction name with
    | none => rfl
    | some entry =>
      dsimp only
      split
      next => rfl
      next =>
        split
        next => rfl
        next =>
          rw [Recorded.bind_result, args_result entity position 0 args fun arg member position => inner arg member position]
          rfl

/-- What is recorded again when the operand of the literal is compiled twice. -/
def again (value : LiteralExpr) (result : Except Exn Str) (events : List Position) : List Position :=
  if value = .null then Recorded.after result events else []

theorem binary_events (op : BinaryOp) (left right : Expr) :
    (compileCalls entity position (.binary op left right)).events = position ::
      match binaryForm op left right with
      | .testRight _ => (compileCalls entity (position ++ [1]) right).events
      | .testLeft _ => (compileCalls entity (position ++ [0]) left).events
      | .literalLeft value => (compileCalls entity (position ++ [1]) right).events ++
          again value (compile entity right) (compileCalls entity (position ++ [1]) right).events
      | .literalRight value => (compileCalls entity (position ++ [0]) left).events ++
          again value (compile entity left) (compileCalls entity (position ++ [0]) left).events
      | .general => (compileCalls entity (position ++ [0]) left).events ++
          Recorded.after (compile entity left) (compileCalls entity (position ++ [1]) right).events := by
  have leftResult := compileCalls_result entity (position ++ [0]) left
  have rightResult := compileCalls_result entity (position ++ [1]) right
  rw [compileCalls, Recorded.note_bind_events, binaryForm, ← leftResult, ← rightResult]
  congr 1
  cases left.literal? with
  | none =>
    cases right.literal? with
    | none =>
      rw [← Recorded.both_events]
      cases nullTest op <;> rfl
    | some value =>
      cases value with
      | null =>
        cases nullTest op with
        | none => exact Recorded.both_events _ _ _
        | some test => exact Recorded.map_events _ _
      | _ => cases nullTest op <;> exact (Recorded.map_events _ _).trans (List.append_nil _).symm
  | some value =>
    cases right.literal? with
    | none =>
      cases value with
      | null =>
        cases nullTest op with
        | none => exact Recorded.both_events _ _ _
        | some test => exact Recorded.map_events _ _
      | _ => cases nullTest op <;> exact (Recorded.map_events _ _).trans (List.append_nil _).symm
    | some other => cases value <;> cases nullTest op <;> exact Recorded.both_events _ _ _

theorem args_events (index : Nat) (arg : Expr) (others : List Expr) :
    (compileArgsCalls entity position index (arg :: others)).events =
      (if arg.literal?.isSome then [] else (compileCalls entity (position ++ [index]) arg).events) ++
        Recorded.after (compile entity arg) (compileArgsCalls entity position (index + 1) others).events := by
  rw [compileArgsCalls, Recorded.both_events]
  cases literal : arg.literal? with
  | none =>
    rw [compileCalls_result]
    rfl
  | some value =>
    rw [literal_eq literal]
    rfl

theorem call_events (name : Str) (args : List Expr) :
    (compileCalls entity position (.functionCall name args)).events = position :: [] ∧ ¬ Known name args.length ∨
      (compileCalls entity position (.functionCall name args)).events =
        position :: (compileArgsCalls entity position 0 args).events ∧ Known name args.length := by
  rw [compileCalls, Recorded.note_bind_events]
  cases found : findFunction name with
  | none => exact .inl ⟨rfl, known_none found _⟩
  | some entry =>
    dsimp only
    split
    next wrong => exact .inl ⟨rfl, fun known => (known_some found _).mp known wrong⟩
    next right =>
      refine .inr ⟨?_, (known_some found _).mpr right⟩
      split
      next now =>
        rw [now_empty found now right]
        rfl
      next => rw [Recorded.map_events]

end

private theorem allNodes_below {position : Position} {args : List Expr}
    (each : ∀ arg ∈ args, ∀ position, ∀ p ∈ nodes position arg, position <+: p) (index : Nat) :
    ∀ p ∈ allNodes position index args, ∃ child, index ≤ child ∧ position ++ [child] <+: p := by
  induction args generalizing index with
  | nil => exact nofun
  | cons arg others ih =>
    obtain ⟨here, later⟩ := List.forall_mem_cons.mp each
    intro p member
    rcases List.mem_append.mp member with inside | inside
    · exact ⟨index, Nat.le_refl index, here _ p inside⟩
    · obtain ⟨child, above, below⟩ := ih later (index + 1) p inside
      exact ⟨child, by omega, below⟩

theorem nodes_below (expr : Expr) : ∀ position, ∀ p ∈ nodes position expr, position <+: p := by
  induction expr with
  | property name =>
    intro position p member
    exact List.mem_singleton.mp member ▸ List.prefix_rfl
  | literal value =>
    intro position p member
    exact List.mem_singleton.mp member ▸ List.prefix_rfl
  | unary op child inner =>
    intro position p member
    rcases List.mem_cons.mp member with rfl | inside
    · exact List.prefix_rfl
    · exact (List.prefix_append _ _).trans (inner _ p inside)
  | binary op left right first last =>
    intro position p member
    rcases List.mem_cons.mp member with rfl | inside
    · exact List.prefix_rfl
    · rcases List.mem_append.mp inside with inside | inside
      · exact (List.prefix_append _ _).trans (first _ p inside)
      · exact (List.prefix_append _ _).trans (last _ p inside)
  | functionCall name args inner =>
    intro position p member
    rcases List.mem_cons.mp member with rfl | inside
    · exact List.prefix_rfl
    · obtain ⟨child, -, below⟩ := allNodes_below inner 0 p inside
      exact (List.prefix_append _ _).trans below

private theorem children_differ {position p : Position} {first last : Nat} (one : position ++ [first] <+: p)
    (other : position ++ [last] <+: p) : first = last := by
  have same := List.prefix_of_prefix_length_le one other (by simp)
  have equal := same.eq_of_length (by simp)
  simpa using equal

private theorem not_below {position : Position} {child : Nat} : ¬ position ++ [child] <+: position := by
  intro below
  have short := below.length_le
  simp at short

theorem allNodes_args (position : Position) (index : Nat) (args : List Expr) :
    ∀ p ∈ allNodes position index args, ∃ child, index ≤ child ∧ position ++ [child] <+: p :=
  allNodes_below (fun arg _ => nodes_below arg) index

private theorem nodes_position {expr : Expr} {position : Position} {child : Nat} : position ∉ nodes (position ++ [child]) expr :=
  fun member => not_below (nodes_below expr _ position member)

private theorem nodes_disjoint {one other : Expr} {position : Position} {first last : Nat} (apart : first ≠ last) :
    List.Disjoint (nodes (position ++ [first]) one) (nodes (position ++ [last]) other) :=
  fun p member again => apart (children_differ (nodes_below one _ p member) (nodes_below other _ p again))

private theorem args_position {args : List Expr} {position : Position} {index : Nat} : position ∉ allNodes position index args := by
  intro member
  obtain ⟨child, -, below⟩ := allNodes_args position index args position member
  exact not_below below

private theorem args_disjoint {arg : Expr} {others : List Expr} {position : Position} {index : Nat} :
    List.Disjoint (nodes (position ++ [index]) arg) (allNodes position (index + 1) others) := by
  intro p member again
  obtain ⟨child, above, below⟩ := allNodes_args position (index + 1) others p again
  have same := children_differ (nodes_below arg _ p member) below
  omega

/-- Different nodes have different positions. -/
theorem nodes_nodup (expr : Expr) : ∀ position, (nodes position expr).Nodup := by
  induction expr with
  | property name => exact fun position => List.nodup_singleton position
  | literal value => exact fun position => List.nodup_singleton position
  | unary op child inner => exact fun position => List.nodup_cons.mpr ⟨nodes_position, inner _⟩
  | binary op left right first last =>
    intro position
    refine List.nodup_cons.mpr ⟨?_, List.nodup_append'.mpr ⟨first _, last _, nodes_disjoint (by decide)⟩⟩
    rw [List.mem_append, not_or]
    exact ⟨nodes_position, nodes_position⟩
  | functionCall name args inner =>
    intro position
    refine List.nodup_cons.mpr ⟨args_position, ?_⟩
    generalize 0 = index
    induction args generalizing index with
    | nil => exact List.nodup_nil
    | cons arg others ih =>
      obtain ⟨here, later⟩ := List.forall_mem_cons.mp inner
      exact List.nodup_append'.mpr ⟨here _, ih later _, args_disjoint⟩

private theorem after_subset {result : Except Exn α} {events : List Position} : Recorded.after result events ⊆ events := by
  cases result with
  | ok value => exact List.Subset.refl events
  | error failure => exact List.nil_subset events

private theorem again_subset {value : LiteralExpr} {result : Except Exn Str} {events : List Position} :
    again value result events ⊆ events := by
  unfold again
  split
  · exact after_subset
  · exact List.nil_subset events

private theorem args_subset {entity : EdmEntity} {position : Position} {args : List Expr}
    (each : ∀ arg ∈ args, ∀ position, (compileCalls entity position arg).events ⊆ nodes position arg) (index : Nat) :
    (compileArgsCalls entity position index args).events ⊆ allNodes position index args := by
  induction args generalizing index with
  | nil => exact List.nil_subset []
  | cons arg others ih =>
    obtain ⟨here, later⟩ := List.forall_mem_cons.mp each
    rw [args_events, allNodes]
    refine List.append_subset.mpr ⟨?_, ?_⟩
    · split
      · exact List.nil_subset _
      · exact List.Subset.trans (here _) (List.subset_append_left _ _)
    · exact List.Subset.trans after_subset (List.Subset.trans (ih later (index + 1)) (List.subset_append_right _ _))

theorem events_subset (entity : EdmEntity) (expr : Expr) :
    ∀ position, (compileCalls entity position expr).events ⊆ nodes position expr := by
  induction expr with
  | property name => exact fun position => List.Subset.refl [position]
  | literal value => exact fun position => List.Subset.refl [position]
  | unary op child inner =>
    cases op
    intro position
    rw [compileCalls, Recorded.note_bind_events, Recorded.map_events, nodes]
    exact List.cons_subset_cons position (inner _)
  | binary op left right first last =>
    intro position
    have before := List.Subset.trans (first (position ++ [0])) (List.subset_append_left _ (nodes (position ++ [1]) right))
    have behind := List.Subset.trans (last (position ++ [1])) (List.subset_append_right (nodes (position ++ [0]) left) _)
    rw [binary_events, nodes]
    apply List.cons_subset_cons
    cases binaryForm op left right with
    | testRight test => exact behind
    | testLeft test => exact before
    | literalLeft value => exact List.append_subset.mpr ⟨behind, List.Subset.trans again_subset behind⟩
    | literalRight value => exact List.append_subset.mpr ⟨before, List.Subset.trans again_subset before⟩
    | general => exact List.append_subset.mpr ⟨before, List.Subset.trans after_subset behind⟩
  | functionCall name args inner =>
    intro position
    rw [nodes]
    rcases call_events entity position name args with ⟨same, -⟩ | ⟨same, -⟩
    · rw [same]
      exact List.cons_subset_cons position (List.nil_subset _)
    · rw [same]
      exact List.cons_subset_cons position (args_subset inner 0)

private theorem events_position {entity : EdmEntity} {expr : Expr} {position : Position} {child : Nat} :
    position ∉ (compileCalls entity (position ++ [child]) expr).events :=
  fun member => nodes_position (events_subset entity expr _ member)

theorem events_some (entity : EdmEntity) (position : Position) (expr : Expr) :
    position ∈ (compileCalls entity position expr).events := by
  cases expr with
  | property name => exact List.mem_cons_self
  | literal value => exact List.mem_cons_self
  | unary op child =>
    cases op
    rw [compileCalls, Recorded.note_bind_events]
    exact List.mem_cons_self
  | binary op left right =>
    rw [binary_events]
    exact List.mem_cons_self
  | functionCall name args =>
    rw [compileCalls, Recorded.note_bind_events]
    exact List.mem_cons_self

private theorem nodup_after {first last : List Position} {result : Except Exn α} (apart : List.Disjoint first last) :
    (first ++ Recorded.after result last).Nodup ↔ first.Nodup ∧ (Compiles result → last.Nodup) := by
  rw [List.nodup_append', and_congr_right_iff]
  intro _
  cases result with
  | ok value => exact ⟨fun both _ => both.1, fun done => ⟨done ⟨value, rfl⟩, apart⟩⟩
  | error failure => exact ⟨fun _ => nofun, fun _ => ⟨List.nodup_nil, List.disjoint_nil_right first⟩⟩

private theorem nodup_again {value : LiteralExpr} {result : Except Exn Str} {events : List Position} (some : events ≠ []) :
    (events ++ again value result events).Nodup ↔ events.Nodup ∧ (value = .null → ¬ Compiles result) := by
  obtain ⟨p, member⟩ := List.exists_mem_of_ne_nil events some
  unfold again
  by_cases null : value = .null
  · rw [if_pos null, List.nodup_append']
    cases result with
    | ok done =>
      refine ⟨fun both => absurd (both.2.2 member) (not_not.mpr member), fun both => ?_⟩
      exact absurd ⟨done, rfl⟩ (both.2 null)
    | error failure => exact ⟨fun both => ⟨both.1, fun _ => nofun⟩, fun both => ⟨both.1, List.nodup_nil, List.disjoint_nil_right _⟩⟩
  · rw [if_neg null, List.append_nil]
    exact ⟨fun nodup => ⟨nodup, fun same => absurd same null⟩, And.left⟩

private theorem args_once {entity : EdmEntity} {position : Position} {args : List Expr}
    (each : ∀ arg ∈ args, ∀ position, (compileCalls entity position arg).events.Nodup ↔ Once entity arg) (index : Nat) :
    (compileArgsCalls entity position index args).events.Nodup ↔ AllOnce entity args := by
  induction args generalizing index with
  | nil => exact ⟨fun _ => trivial, fun _ => List.nodup_nil⟩
  | cons arg others ih =>
    obtain ⟨here, later⟩ := List.forall_mem_cons.mp each
    have rest : (compileArgsCalls entity position (index + 1) others).events ⊆ allNodes position (index + 1) others :=
      args_subset (fun arg _ => events_subset entity arg) _
    rw [args_events, AllOnce, ← compile_compiles, ← ih later (index + 1), nodup_after, and_congr_left_iff]
    · intro _
      split
      next literal =>
        obtain ⟨value, literal⟩ := Option.isSome_iff_exists.mp literal
        rw [literal_eq literal]
        exact ⟨fun _ => trivial, fun _ => List.nodup_nil⟩
      next => exact here _
    · split
      · exact List.disjoint_nil_left _
      · exact List.disjoint_of_subset_left (events_subset entity arg _) (List.disjoint_of_subset_right rest args_disjoint)

theorem nodup_once (entity : EdmEntity) (expr : Expr) :
    ∀ position, (compileCalls entity position expr).events.Nodup ↔ Once entity expr := by
  induction expr with
  | property name => exact fun position => ⟨fun _ => trivial, fun _ => List.nodup_singleton position⟩
  | literal value => exact fun position => ⟨fun _ => trivial, fun _ => List.nodup_singleton position⟩
  | unary op child inner =>
    cases op
    intro position
    rw [compileCalls, Recorded.note_bind_events, Recorded.map_events, List.nodup_cons, and_iff_right events_position, inner, Once]
  | binary op left right first last =>
    intro position
    have someLeft := List.ne_nil_of_mem (events_some entity (position ++ [0]) left)
    have someRight := List.ne_nil_of_mem (events_some entity (position ++ [1]) right)
    have apart : List.Disjoint (compileCalls entity (position ++ [0]) left).events (compileCalls entity (position ++ [1]) right).events :=
      List.disjoint_of_subset_left (events_subset entity left _)
        (List.disjoint_of_subset_right (events_subset entity right _) (nodes_disjoint (by decide)))
    rw [binary_events, List.nodup_cons, Once]
    cases form : binaryForm op left right with
    | testRight test => exact (and_iff_right events_position).trans (last _)
    | testLeft test => exact (and_iff_right events_position).trans (first _)
    | literalLeft value =>
      have root : position ∉ (compileCalls entity (position ++ [1]) right).events ++ again value (compile entity right) _ :=
        fun member => events_position (List.append_subset.mpr ⟨List.Subset.refl _, again_subset⟩ member)
      dsimp only
      rw [and_iff_right root, nodup_again someRight, last, compile_compiles]
    | literalRight value =>
      have root : position ∉ (compileCalls entity (position ++ [0]) left).events ++ again value (compile entity left) _ :=
        fun member => events_position (List.append_subset.mpr ⟨List.Subset.refl _, again_subset⟩ member)
      dsimp only
      rw [and_iff_right root, nodup_again someLeft, first, compile_compiles]
    | general =>
      have root : position ∉ (compileCalls entity (position ++ [0]) left).events ++
          Recorded.after (compile entity left) (compileCalls entity (position ++ [1]) right).events := by
        rw [List.mem_append, not_or]
        exact ⟨events_position, fun inside => events_position (after_subset inside)⟩
      dsimp only
      rw [and_iff_right root, nodup_after apart, first, last, compile_compiles]
  | functionCall name args inner =>
    intro position
    rw [Once]
    rcases call_events entity position name args with ⟨same, unknown⟩ | ⟨same, known⟩
    · rw [same]
      exact ⟨fun _ known => absurd known unknown, fun _ => List.nodup_singleton position⟩
    · rw [same, List.nodup_cons, args_once inner 0]
      have inside : position ∉ (compileArgsCalls entity position 0 args).events := fun member =>
        args_position (args_subset (fun arg _ => events_subset entity arg) 0 member)
      exact ⟨fun both _ => both.2, fun once => ⟨inside, once known⟩⟩

/-- Each node is compiled at most once exactly if no operand of the literal `null`
is compiled for a null test that its operator does not have. -/
theorem eachOnce_iff (entity : EdmEntity) (expr : Expr) : EachOnce entity expr ↔ Once entity expr := by
  rw [EachOnce, calls, nodup_once]
  refine and_iff_left_of_imp fun once => ?_
  have nodup := (nodup_once entity expr []).mpr once
  exact (List.subperm_of_subset nodup (events_subset entity expr [])).length_le

private def people : EdmEntity :=
  { schema := "main".toList, name := "people".toList, properties := [{ name := "a".toList, duckdbType := "BIGINT".toList }] }

/-- `null lt (null lt (… a))`, with `n` operators. -/
def nested : Nat → Expr
  | 0 => .property "a".toList
  | n + 1 => .binary .lt (.literal .null) (nested n)

private theorem nested_literal (n : Nat) : (nested n).literal? = none := by
  cases n with
  | zero => rfl
  | succ n => rfl

private theorem nested_valid (n : Nat) : Valid people (nested n) := by
  induction n with
  | zero => exact ⟨_, List.mem_cons_self, rfl⟩
  | succ n ih => exact ⟨trivial, ih⟩

/-- The calls double with every level. -/
theorem calls_nested (n : Nat) : ∀ position, (compileCalls people position (nested n)).events.length = 2 ^ (n + 1) - 1 := by
  induction n with
  | zero => exact fun position => rfl
  | succ n ih =>
    intro position
    obtain ⟨text, done⟩ := (compile_compiles people (nested n)).mpr (nested_valid n)
    have form : binaryForm .lt (.literal .null) (nested n) = .literalLeft .null := by
      rw [binaryForm, nested_literal]
      rfl
    rw [nested, binary_events, form]
    dsimp only
    rw [done, again, if_pos rfl, Recorded.after, List.length_cons, List.length_append, ih, pow_succ]
    have positive := Nat.one_le_two_pow (n := n + 1)
    omega

/-- `null lt (null lt a)` compiles the property four times. -/
theorem eachOnce_nested : ∃ expr, parseFilter "null lt (null lt a)".toList = .ok expr ∧
    (nodes [] expr).length = 5 ∧ (calls people expr).length = 7 ∧ (calls people expr).count [1, 1] = 4 ∧ ¬ EachOnce people expr := by
  have tokens : tokenize "null lt (null lt a)".toList = .ok (FilterGrammar.print (nested 2) ++ [{ type := .end }]) := rfl
  have parsed : parseFilter "null lt (null lt a)".toList = .ok (nested 2) := by
    rw [parseFilter, tokens, FilterGrammar.ok_bind]
    exact FilterGrammar.parse_print (nested 2) rfl
  refine ⟨nested 2, parsed, rfl, calls_nested 2 [], rfl, ?_⟩
  intro each
  have short : (calls people (nested 2)).length ≤ 5 := each.2
  rw [calls, calls_nested 2 []] at short
  omega

end DuckdbOdata.CompileCalls
