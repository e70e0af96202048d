import Mathlib.Data.List.Sort
import DuckdbOdata.Foundation.Listings
import DuckdbOdata.Foundation.Reading
import DuckdbOdata.Foundation.SqlLogic
import DuckdbOdata.Foundation.SqlPrecedence

/-! SELECT statements over one table: their syntax, read clause by clause, and the
rows they return. Rows that the sort does not tell apart may come in any order. -/

namespace Sql
open Text Listings Reading

inductive Selection
  | all
  | columns (names : List Str)
  | count (name : Str)
deriving DecidableEq

structure SortTerm where
  column : Str
  descending : Bool := false
deriving DecidableEq

structure Select where
  selection : Selection
  source : List Str
  condition : Option Tree := none
  order : List SortTerm := []
  limit : Option Nat := none
  offset : Option Nat := none

def readName : List Token → Option (Str × List Token)
  | .ident name :: rest => some (name, rest)
  | _ => none

/-- The machine as far as it can go, and the tokens that are left. -/
def advance : State → List Token → State × List Token
  | state, [] => (state, [])
  | state, token :: tokens =>
    match step state token with
    | some next => advance next tokens
    | none => (state, token :: tokens)

/-- The longest condition. -/
def readCondition (tokens : List Token) : Option (Tree × List Token) :=
  let (state, rest) := advance (.parsing {} []) tokens
  state.result.map fun tree => (tree, rest)

/-- Ascending, if nothing is said. -/
def readSort : List Token → Option (SortTerm × List Token)
  | .ident name :: .word direction :: rest =>
    if direction = "DESC".toList then some (⟨name, true⟩, rest)
    else if direction = "ASC".toList then some (⟨name, false⟩, rest)
    else some (⟨name, false⟩, .word direction :: rest)
  | .ident name :: rest => some (⟨name, false⟩, rest)
  | _ => none

def readOrder (tokens : List Token) : Option (List SortTerm × List Token) := do
  let rest ← expect (.word "BY".toList) tokens
  readList (.punct ',') readSort rest

def readBound : List Token → Option (Nat × List Token)
  | .num digits :: rest => (readNumber digits).map fun bound => (bound, rest)
  | _ => none

def readCount (tokens : List Token) : Option (Selection × List Token) := do
  let rest ← expect (.punct '(') tokens
  let rest ← expect (.op ['*']) rest
  let rest ← expect (.punct ')') rest
  let rest ← expect (.word "AS".toList) rest
  match rest with
  | .word name :: rest => some (.count name, rest)
  | _ => none

def readSelection : List Token → Option (Selection × List Token)
  | .op symbol :: rest => if symbol = ['*'] then some (.all, rest) else none
  | .word name :: rest => if name = "COUNT".toList then readCount rest else none
  | tokens => (readList (.punct ',') readName tokens).map fun (names, rest) => (.columns names, rest)

/-- A clause that may be missing. -/
def optionally (keyword : String) (read : List Token → Option (α × List Token)) (tokens : List Token) :
    Option (Option α × List Token) :=
  match expect (.word keyword.toList) tokens with
  | none => some (none, tokens)
  | some rest => (read rest).map fun (value, after) => (some value, after)

def parseSelect (tokens : List Token) : Option Select := do
  let rest ← expect (.word "SELECT".toList) tokens
  let (selection, rest) ← readSelection rest
  let rest ← expect (.word "FROM".toList) rest
  let (source, rest) ← readList (.punct '.') readName rest
  let (condition, rest) ← optionally "WHERE" readCondition rest
  let (order, rest) ← optionally "ORDER" readOrder rest
  let (limit, rest) ← optionally "LIMIT" readBound rest
  let (offset, rest) ← optionally "OFFSET" readBound rest
  if rest = [] then some ⟨selection, source, condition, order.getD [], limit, offset⟩ else none

def readSelect (text : Str) : Option Select := (lex text).bind parseSelect

/-- What a database makes of the rows of a table: how it reads their columns, how it
sorts by one term, and what it returns for a row and for a number of rows. -/
structure Engine (Record α Output : Type) where
  values : Values α
  column : Record → Str → Option (Datum α)
  compare : SortTerm → Record → Record → Ordering
  lawful : ∀ term, Std.TransCmp (compare term)
  shown : Selection → Record → Output
  number : Nat → Output

variable {Record α Output : Type}

instance (values : Values α) (row : Str → Option (Datum α)) (condition : Tree) : Decidable (Keeps values row condition) :=
  inferInstanceAs (Decidable (_ = some true))

def Engine.kept (engine : Engine Record α Output) (condition : Option Tree) (record : Record) : Bool :=
  match condition with
  | none => true
  | some tree => decide (Keeps engine.values (engine.column record) tree)

/-- By the first term that tells two rows apart. -/
def Engine.order (engine : Engine Record α Output) : List SortTerm → Record → Record → Ordering
  | [] => fun _ _ => .eq
  | term :: later => compareLex (engine.compare term) (engine.order later)

/-- The rows that the condition keeps. -/
def Select.matching (engine : Engine Record α Output) (select : Select) (records : List Record) : List Record :=
  records.filter (engine.kept select.condition)

/-- These rows, sorted. -/
structure Select.Arranges (engine : Engine Record α Output) (select : Select) (records arranged : List Record) : Prop where
  rows : arranged.Perm (select.matching engine records)
  sorted : arranged.Pairwise fun one other => (engine.order select.order one other).isLE

def Select.cut (select : Select) (rows : List β) : List β :=
  match select.limit with
  | none => rows.drop (select.offset.getD 0)
  | some size => window size (select.offset.getD 0) rows

/-- The statement returns these rows. -/
def Select.Returns (engine : Engine Record α Output) (select : Select) (records : List Record) (rows : List Output) : Prop :=
  match select.selection with
  | .count _ => rows = select.cut [engine.number (select.matching engine records).length]
  | selection => ∃ arranged, select.Arranges engine records arranged ∧ rows = (select.cut arranged).map (engine.shown selection)

/-- Any two of these rows are told apart by the sort. -/
def Engine.Determines (engine : Engine Record α Output) (terms : List SortTerm) (records : List Record) : Prop :=
  ∀ one ∈ records, ∀ other ∈ records, engine.order terms one other = .eq → one = other

section Meaning

variable {engine : Engine Record α Output} {select : Select} {records : List Record}

instance Engine.order_lawful (terms : List SortTerm) : Std.TransCmp (engine.order terms) := by
  induction terms with
  | nil => exact { eq_swap := rfl, isLE_trans := fun _ _ => rfl }
  | cons term later ih =>
    have first := engine.lawful term
    exact inferInstanceAs (Std.TransCmp (compareLex _ _))

/-- Rows are returned where no count is asked for. -/
theorem Select.Returns.arranged {rows : List Output} (returns : select.Returns engine records rows)
    (listed : ∀ name, select.selection ≠ .count name) :
    ∃ arranged, select.Arranges engine records arranged ∧ rows = (select.cut arranged).map (engine.shown select.selection) := by
  unfold Returns at returns
  split at returns
  next name same => exact absurd same (listed name)
  next => exact returns

theorem Select.Arranges.unique {one other : List Record} (first : select.Arranges engine records one)
    (second : select.Arranges engine records other) (determined : engine.Determines select.order (select.matching engine records)) :
    one = other := by
  refine List.Perm.eq_of_pairwise ?_ first.sorted second.sorted (first.rows.trans second.rows.symm)
  intro row next here there before after
  exact determined row (first.rows.subset here) next (second.rows.subset there) (Std.OrientedCmp.isLE_antisymm before after)

theorem Select.Arranges.length {arranged : List Record} (arranges : select.Arranges engine records arranged) :
    arranged.length = (select.matching engine records).length := arranges.rows.length_eq

instance (engine : Engine Record α Output) (terms : List SortTerm) : IsTrans Record fun one other => (engine.order terms one other).isLE :=
  ⟨fun _ _ _ => Std.TransCmp.isLE_trans⟩

instance (engine : Engine Record α Output) (terms : List SortTerm) :
    Std.Total fun one other : Record => (engine.order terms one other).isLE where
  total one other := by
    by_cases before : (engine.order terms one other).isLE
    · exact .inl before
    · have greater : engine.order terms one other = .gt := by simpa using before
      right
      apply Std.OrientedCmp.isLE_of_isGE
      rw [greater]
      rfl

/-- Rows that are not told apart stay as they are in the table. -/
def Select.arrangement (engine : Engine Record α Output) (select : Select) (records : List Record) : List Record :=
  (select.matching engine records).insertionSort fun one other => (engine.order select.order one other).isLE

theorem Select.arrangement_arranges (engine : Engine Record α Output) (select : Select) (records : List Record) :
    select.Arranges engine records (select.arrangement engine records) where
  rows := List.perm_insertionSort _ _
  sorted := List.pairwise_insertionSort _ _

def Select.evaluate (engine : Engine Record α Output) (select : Select) (records : List Record) : List Output :=
  match select.selection with
  | .count _ => select.cut [engine.number (select.matching engine records).length]
  | selection => (select.cut (select.arrangement engine records)).map (engine.shown selection)

theorem Select.evaluate_returns (engine : Engine Record α Output) (select : Select) (records : List Record) :
    select.Returns engine records (select.evaluate engine records) := by
  unfold Returns evaluate
  cases select.selection with
  | count => rfl
  | all => exact ⟨_, select.arrangement_arranges engine records, rfl⟩
  | columns => exact ⟨_, select.arrangement_arranges engine records, rfl⟩

end Meaning

theorem readList_names {separator : Token} {names : List Str} (present : names ≠ []) {rest : List Token}
    (stops : rest.head? ≠ some separator) :
    readList separator readName ([separator].intercalate (names.map fun name => [.ident name]) ++ rest) =
      some (names, rest) :=
  readList_all (fun _ _ _ => rfl) (fun _ _ => List.cons_ne_nil _ _) present stops

def SortTerm.tokens (term : SortTerm) : List Token :=
  [.ident term.column, .word (if term.descending then "DESC".toList else "ASC".toList)]

theorem readList_sorts {terms : List SortTerm} (present : terms ≠ []) {rest : List Token}
    (stops : rest.head? ≠ some (.punct ',')) :
    readList (.punct ',') readSort ([Token.punct ','].intercalate (terms.map SortTerm.tokens) ++ rest) = some (terms, rest) := by
  refine readList_all ?_ (fun _ _ => List.cons_ne_nil _ _) present stops
  intro term _ rest
  obtain ⟨column, descending⟩ := term
  cases descending with
  | true => rfl
  | false => rfl

/-- A run is followed as far as it goes. -/
theorem advance_run {state next : State} {tokens : List Token} (runs : run state tokens = some next) (rest : List Token) :
    advance state (tokens ++ rest) = advance next rest := by
  induction tokens generalizing state with
  | nil =>
    cases runs
    rfl
  | cons token tokens ih =>
    rw [run_cons] at runs
    obtain ⟨middle, stepped, later⟩ := Option.bind_eq_some_iff.mp runs
    rw [List.cons_append, advance, stepped]
    exact ih later

/-- What may follow a clause: nothing, or the next clause. -/
def Ends (rest : List Token) : Prop := ∀ token ∈ rest.head?, token ∈ ["ORDER", "LIMIT", "OFFSET"].map fun keyword => Token.word keyword.toList

theorem Ends.nil : Ends [] := nofun

theorem Ends.not_punct {rest : List Token} (ends : Ends rest) (c : Char) : rest.head? ≠ some (.punct c) := by
  intro same
  have member := ends _ same
  simp at member

private theorem advance_ends {rest : List Token} (ends : Ends rest) (level : Level) (found : Tree × Bool) :
    advance (.parsing (level.after found) []) rest = (.parsing (level.after found) [], rest) := by
  cases rest with
  | nil => rfl
  | cons token rest =>
    have member := ends token rfl
    simp only [List.map_cons, List.map_nil, List.mem_cons, List.not_mem_nil, or_false] at member
    rcases member with rfl | rfl | rfl
    · rfl
    · rfl
    · rfl

private theorem readCondition_run {tokens : List Token} {level : Level} {found : Tree × Bool}
    (runs : run (.parsing {} []) tokens = some (.parsing (level.after found) [])) {rest : List Token} (ends : Ends rest) :
    readCondition (tokens ++ rest) = some (level.whole found.1, rest) := by
  unfold readCondition
  rw [advance_run runs, advance_ends ends]
  rfl

theorem Reads.condition {tokens : List Token} {take : Slot → Option (Tree × Bool)} {tree : Tree} {separated : Prop} {shape : Shape}
    (reads : Reads tokens take tree separated shape) (holds : separated) {rest : List Token} (ends : Ends rest) :
    readCondition (tokens ++ rest) = some (tree, rest) := by
  have runs := reads.runs {} [] none rfl
  rw [reads.whole holds] at runs
  exact readCondition_run runs ends

/-- Conditions that are joined from the left, after what has been joined before. -/
def conjuncts (before : Option Tree) (trees : List Tree) : Option Tree :=
  trees.foldl (fun joined tree => some (({ conjunct := joined } : Level).conjoin tree)) before

private theorem run_conjuncts {arguments : List Argument} (holds : ∀ argument ∈ arguments, argument.separated)
    (present : arguments ≠ []) (before : Option Tree) :
    ∃ (level : Level) (found : Tree × Bool), run (.parsing { conjunct := before } []) ([Token.word "AND".toList].intercalate (arguments.map (·.tokens))) =
        some (.parsing (level.after found) []) ∧ conjuncts before (arguments.map (·.tree)) = some (level.whole found.1) := by
  induction arguments generalizing before with
  | nil => exact absurd rfl present
  | cons argument others ih =>
    have runs := argument.reads.runs { conjunct := before } [] none rfl
    rw [argument.reads.whole (holds argument List.mem_cons_self)] at runs
    cases others with
    | nil =>
      rw [List.map_cons, List.map_nil, List.intercalate_singleton, runs]
      exact ⟨_, _, rfl, rfl⟩
    | cons next others =>
      obtain ⟨level, found, later, whole⟩ := ih (fun other member => holds other (List.mem_cons_of_mem _ member))
        (List.cons_ne_nil next others) (some (({ conjunct := before } : Level).conjoin argument.tree))
      refine ⟨level, found, ?_, whole⟩
      simp only [List.map_cons] at later ⊢
      rw [List.intercalate_cons_cons, List.append_assoc, run_append, runs, Option.map_some, Option.bind_some, List.singleton_append,
        run_cons]
      exact later

/-- Conditions with `AND` between them. -/
theorem readCondition_conjuncts {arguments : List Argument} (holds : ∀ argument ∈ arguments, argument.separated)
    (present : arguments ≠ []) {rest : List Token} (ends : Ends rest) :
    ∃ tree, conjuncts none (arguments.map (·.tree)) = some tree ∧
      readCondition ([Token.word "AND".toList].intercalate (arguments.map (·.tokens)) ++ rest) = some (tree, rest) := by
  obtain ⟨level, found, runs, whole⟩ := run_conjuncts holds present none
  exact ⟨_, whole, readCondition_run runs ends⟩

theorem readSelection_columns {names : List Str} (present : names ≠ []) {rest : List Token} (stops : rest.head? ≠ some (.punct ',')) :
    readSelection ([Token.punct ','].intercalate (names.map fun name => [.ident name]) ++ rest) = some (.columns names, rest) := by
  obtain ⟨first, others, rfl⟩ := List.exists_cons_of_ne_nil present
  have listed := readList_names (List.cons_ne_nil first others) stops
  obtain ⟨tail, same⟩ : ∃ tail, [Token.punct ','].intercalate ((first :: others).map fun name => [.ident name]) ++ rest =
      .ident first :: tail := by
    cases others <;> simp
  rw [same] at listed ⊢
  have reads : readSelection (.ident first :: tail) =
    (readList (.punct ',') readName (.ident first :: tail)).map fun (names, rest) => (.columns names, rest) := rfl
  rw [reads, listed]
  rfl

/-- The tokens of a clause that may be missing, and what they are read as. -/
inductive Written (keyword : String) (read : List Token → Option (α × List Token)) : List Token → Option α → Prop
  | absent : Written keyword read [] none
  | present {tokens value} : (∀ rest, Ends rest → read (tokens ++ rest) = some (value, rest)) →
      Written keyword read (.word keyword.toList :: tokens) (some value)

section Clauses

variable {keyword : String} {read : List Token → Option (α × List Token)} {tokens rest : List Token} {value : Option α}

theorem Written.head (written : Written keyword read tokens value) {token : Token} (other : Token.word keyword.toList ≠ token)
    (later : rest.head? ≠ some token) : (tokens ++ rest).head? ≠ some token := by
  cases written with
  | absent => exact later
  | present =>
    intro same
    exact other (Option.some.inj same)

theorem Written.ends (written : Written keyword read tokens value) (known : keyword ∈ ["ORDER", "LIMIT", "OFFSET"]) (ends : Ends rest) :
    Ends (tokens ++ rest) := by
  cases written with
  | absent => exact ends
  | present =>
    intro token same
    cases same
    exact List.mem_map_of_mem known

theorem Written.optionally (written : Written keyword read tokens value) (ends : Ends rest)
    (apart : rest.head? ≠ some (.word keyword.toList)) : optionally keyword read (tokens ++ rest) = some (value, rest) := by
  unfold Sql.optionally
  cases written with
  | absent => rw [List.nil_append, expect_other apart]
  | present reads =>
    rw [List.cons_append, expect_same]
    dsimp only
    rw [reads rest ends]
    rfl

end Clauses

/-- A bound is read from its digits. -/
theorem Written.bound (keyword : String) (n : Nat) :
    Written keyword readBound [.word keyword.toList, .num (Nat.toDigits 10 n)] (some n) := by
  apply Written.present
  intro rest _
  rw [List.singleton_append, readBound, readNumber_digits]
  rfl

/-- A statement is read clause by clause. -/
theorem parseSelect_clauses {list conditionTokens orderTokens limitTokens offsetTokens : List Token} {selection : Selection}
    {source : List Str} {condition : Option Tree} {order : Option (List SortTerm)} {limit offset : Option Nat}
    (selects : ∀ rest, readSelection (list ++ .word "FROM".toList :: rest) = some (selection, .word "FROM".toList :: rest))
    (present : source ≠ []) (filters : Written "WHERE" readCondition conditionTokens condition)
    (sorts : Written "ORDER" readOrder orderTokens order) (limits : Written "LIMIT" readBound limitTokens limit)
    (skips : Written "OFFSET" readBound offsetTokens offset) :
    parseSelect (.word "SELECT".toList :: (list ++ .word "FROM".toList ::
        ([Token.punct '.'].intercalate (source.map fun name => [.ident name]) ++
          (conditionTokens ++ (orderTokens ++ (limitTokens ++ offsetTokens)))))) =
      some ⟨selection, source, condition, order.getD [], limit, offset⟩ := by
  have skip := skips.optionally .nil (by decide)
  have limit' := limits.optionally (skips.ends (by decide) .nil) (skips.head (by decide) (by decide))
  have afterOrder : Ends (limitTokens ++ (offsetTokens ++ [])) := limits.ends (by decide) (skips.ends (by decide) .nil)
  have order' := sorts.optionally afterOrder (limits.head (by decide) (skips.head (by decide) (by decide)))
  have condition' := filters.optionally (sorts.ends (by decide) afterOrder)
    (sorts.head (by decide) (limits.head (by decide) (skips.head (by decide) (by decide))))
  have source' := readList_names present (filters.head (by decide) (sorts.ends (by decide) afterOrder |>.not_punct '.'))
  rw [List.append_nil] at skip limit' order' condition' source'
  unfold parseSelect
  simp only [expect_same, Option.bind_eq_bind, Option.bind_some, selects, source', condition', order', limit', skip, if_true]

end Sql
