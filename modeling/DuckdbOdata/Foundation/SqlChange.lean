import DuckdbOdata.Foundation.Reading
import DuckdbOdata.Foundation.SqlGrammar
import DuckdbOdata.Foundation.SqlParameters

/-! INSERT, UPDATE and DELETE with their parameters filled in: their syntax, read
from the tokens, and what they do to the rows of a table. -/

namespace Sql
open Text Reading

/-- A column with the value it gets or is compared with, cast to a type. -/
structure Setting (V : Type) where
  column : Str
  type : List Token
  value : V

/-- A deleted or updated row is one whose key column equals the key. -/
inductive Change (V : Type)
  | insert (settings : List (Setting V))
  | update (settings : List (Setting V)) (key : Setting V)
  | delete (key : Setting V)

variable {V : Type}

namespace Change

def settings : Change V → List (Setting V)
  | .insert settings | .update settings _ => settings
  | .delete _ => []

def key? : Change V → Option (Setting V)
  | .insert _ => none
  | .update _ key | .delete key => some key

end Change

/-- A change of one table, and the columns that it returns of the rows. -/
structure ChangeStatement (V : Type) where
  target : List Str
  change : Change V
  returning : List Str

deriving instance DecidableEq for Filled

def word (name : String) : Filled V := .token (.word name.toList)

def symbol (c : Char) : Filled V := .token (.punct c)

def named (names : List Str) (separator : Char) : List (Filled V) :=
  [symbol separator].intercalate (names.map fun name => [.token (.ident name)])

/-- A value with the type it is cast to. -/
def castTokens (cast : List Token × V) : List (Filled V) :=
  [word "CAST", symbol '(', .value cast.2, word "AS"] ++ cast.1.map .token ++ [symbol ')']

def Setting.cast (setting : Setting V) : List Token × V := (setting.type, setting.value)

def Setting.tokens (setting : Setting V) : List (Filled V) :=
  .token (.ident setting.column) :: .token (.op ['=']) :: castTokens setting.cast

def Change.tokens (target : List Str) : Change V → List (Filled V)
  | .insert [] => [word "INSERT", word "INTO"] ++ named target '.' ++ [word "DEFAULT", word "VALUES"]
  | .insert settings =>
    [word "INSERT", word "INTO"] ++ named target '.' ++ [symbol '('] ++ named (settings.map (·.column)) ',' ++
      [symbol ')', word "VALUES", symbol '('] ++ [symbol ','].intercalate (settings.map fun setting => castTokens setting.cast) ++ [symbol ')']
  | .update settings key =>
    [word "UPDATE"] ++ named target '.' ++ [word "SET"] ++ [symbol ','].intercalate (settings.map Setting.tokens) ++
      [word "WHERE"] ++ key.tokens
  | .delete key => [word "DELETE", word "FROM"] ++ named target '.' ++ [word "WHERE"] ++ key.tokens

def ChangeStatement.tokens (statement : ChangeStatement V) : List (Filled V) :=
  statement.change.tokens statement.target ++ word "RETURNING" :: named statement.returning ','

variable [DecidableEq V]

def readIdent : List (Filled V) → Option (Str × List (Filled V))
  | .token (.ident name) :: rest => some (name, rest)
  | _ => none

/-- Up to the parenthesis that closes. -/
def readType : Nat → List (Filled V) → Option (List Token × List (Filled V))
  | depth, .token token :: rest =>
    if token = .punct ')' then
      if depth = 0 then some ([], rest) else (readType (depth - 1) rest).map fun (type, after) => (token :: type, after)
    else (readType (if token = .punct '(' then depth + 1 else depth) rest).map fun (type, after) => (token :: type, after)
  | _, _ => none

def readCast (tokens : List (Filled V)) : Option ((List Token × V) × List (Filled V)) := do
  let rest ← expect (word "CAST") tokens
  let rest ← expect (symbol '(') rest
  match rest with
  | .value value :: rest =>
    let rest ← expect (word "AS") rest
    let (type, rest) ← readType 0 rest
    some ((type, value), rest)
  | _ => none

def readSetting (tokens : List (Filled V)) : Option (Setting V × List (Filled V)) := do
  let (column, rest) ← readIdent tokens
  let rest ← expect (.token (.op ['='])) rest
  let ((type, value), rest) ← readCast rest
  some (⟨column, type, value⟩, rest)

def settingsOf (columns : List Str) (casts : List (List Token × V)) : List (Setting V) :=
  List.zipWith (fun column cast => ⟨column, cast.1, cast.2⟩) columns casts

/-- The columns and the values of a row, in the same number. -/
def readRow (tokens : List (Filled V)) : Option (List (Setting V) × List (Filled V)) :=
  match expect (word "DEFAULT") tokens with
  | some rest => (expect (word "VALUES") rest).map fun after => ([], after)
  | none => do
    let rest ← expect (symbol '(') tokens
    let (columns, rest) ← readList (symbol ',') readIdent rest
    let rest ← expect (symbol ')') rest
    let rest ← expect (word "VALUES") rest
    let rest ← expect (symbol '(') rest
    let (casts, rest) ← readList (symbol ',') readCast rest
    let rest ← expect (symbol ')') rest
    if columns.length = casts.length then some (settingsOf columns casts, rest) else none

def readTarget (tokens : List (Filled V)) : Option (List Str × List (Filled V)) := readList (symbol '.') readIdent tokens

def readKey (tokens : List (Filled V)) : Option (Setting V × List (Filled V)) := (expect (word "WHERE") tokens).bind readSetting

def readInsert (tokens : List (Filled V)) : Option ((List Str × Change V) × List (Filled V)) := do
  let rest ← expect (word "INTO") tokens
  let (target, rest) ← readTarget rest
  let (settings, rest) ← readRow rest
  some ((target, .insert settings), rest)

def readUpdate (tokens : List (Filled V)) : Option ((List Str × Change V) × List (Filled V)) := do
  let (target, rest) ← readTarget tokens
  let rest ← expect (word "SET") rest
  let (settings, rest) ← readList (symbol ',') readSetting rest
  let (key, rest) ← readKey rest
  some ((target, .update settings key), rest)

def readDelete (tokens : List (Filled V)) : Option ((List Str × Change V) × List (Filled V)) := do
  let rest ← expect (word "FROM") tokens
  let (target, rest) ← readTarget rest
  let (key, rest) ← readKey rest
  some ((target, .delete key), rest)

def readChange : List (Filled V) → Option ((List Str × Change V) × List (Filled V))
  | .token (.word first) :: rest =>
    if first = "INSERT".toList then readInsert rest
    else if first = "UPDATE".toList then readUpdate rest
    else if first = "DELETE".toList then readDelete rest
    else none
  | _ => none

def parseChange (tokens : List (Filled V)) : Option (ChangeStatement V) := do
  let ((target, change), rest) ← readChange tokens
  let (returning, rest) ← (expect (word "RETURNING") rest).bind (readList (symbol ',') readIdent)
  if rest = [] then some ⟨target, change, returning⟩ else none

/-- A prepared statement with the values of its parameters. -/
def readPrepared (text : Str) (values : List V) : Option (ChangeStatement V) :=
  ((lex text).bind fun tokens => fill tokens values).bind parseChange

/-- What can be read back from its tokens. -/
structure ChangeStatement.WellFormed (statement : ChangeStatement V) : Prop where
  target : statement.target ≠ []
  returning : statement.returning ≠ []
  settings : ∀ setting ∈ statement.change.settings, Balanced setting.type
  key : ∀ key ∈ statement.change.key?, Balanced key.type
  changes : ∀ settings key, statement.change = .update settings key → settings ≠ []

omit [DecidableEq V] in
private theorem readType_all {type : List Token} {depth last : Nat} (ends : depthAfter depth type = some last) (rest : List (Filled V)) :
    readType depth (type.map .token ++ rest) = (readType last rest).map fun (more, after) => (type ++ more, after) := by
  induction type generalizing depth with
  | nil =>
    cases ends
    rw [List.map_nil, List.nil_append]
    cases readType last rest <;> rfl
  | cons token type ih =>
    rw [List.map_cons, List.cons_append, readType]
    rw [depthAfter] at ends
    split at ends
    next closes =>
      rw [if_pos closes]
      split at ends
      next => cases ends
      next deep =>
        rw [if_neg deep, ih ends, Option.map_map]
        rfl
    next other =>
      rw [if_neg other]
      split at ends
      next opens =>
        rw [if_pos opens, ih ends, Option.map_map]
        rfl
      next plain =>
        rw [if_neg plain, ih ends, Option.map_map]
        rfl

private theorem readCast_all {cast : List Token × V} (balanced : Balanced cast.1) (rest : List (Filled V)) :
    readCast (castTokens cast ++ rest) = some (cast, rest) := by
  have closed : readType 0 (cast.1.map .token ++ (symbol ')' :: rest)) = some (cast.1, rest) := by
    rw [readType_all balanced.2]
    simp [readType, symbol]
  unfold readCast castTokens
  simp [closed]

private theorem readSetting_all {setting : Setting V} (balanced : Balanced setting.type) (rest : List (Filled V)) :
    readSetting (setting.tokens ++ rest) = some (setting, rest) := by
  have cast : readCast (castTokens setting.cast ++ rest) = some (setting.cast, rest) := readCast_all balanced rest
  unfold readSetting Setting.tokens
  rw [List.cons_append, List.cons_append, readIdent]
  simp only [Option.bind_eq_bind, Option.bind_some, expect_same, cast]
  rfl

private theorem readNames {names : List Str} (present : names ≠ []) (separator : Char) (rest : List (Filled V))
    (stops : rest.head? ≠ some (symbol separator)) :
    readList (symbol separator) readIdent (named names separator ++ rest) = some (names, rest) :=
  readList_all (fun _ _ _ => rfl) (fun _ _ => List.cons_ne_nil _ _) present stops

private theorem readKey_all {key : Setting V} (balanced : Balanced key.type) (rest : List (Filled V)) :
    readKey (word "WHERE" :: (key.tokens ++ rest)) = some (key, rest) := by
  unfold readKey
  rw [expect_same]
  exact readSetting_all balanced rest

private theorem readCasts {settings : List (Setting V)} (balanced : ∀ setting ∈ settings, Balanced setting.type) (present : settings ≠ [])
    (rest : List (Filled V)) (stops : rest.head? ≠ some (symbol ',')) :
    readList (symbol ',') readCast ([symbol ','].intercalate (settings.map fun setting => castTokens setting.cast) ++ rest) =
      some (settings.map Setting.cast, rest) := by
  have casts : (settings.map fun setting => castTokens setting.cast) = (settings.map Setting.cast).map castTokens := by
    rw [List.map_map]
    rfl
  rw [casts]
  refine readList_all ?_ (fun _ _ => List.cons_ne_nil _ _) (by simpa using present) stops
  intro cast member rest
  obtain ⟨setting, listed, rfl⟩ := List.mem_map.mp member
  exact readCast_all (balanced setting listed) rest

private theorem readSettings {settings : List (Setting V)} (balanced : ∀ setting ∈ settings, Balanced setting.type)
    (present : settings ≠ []) (rest : List (Filled V)) (stops : rest.head? ≠ some (symbol ',')) :
    readList (symbol ',') readSetting ([symbol ','].intercalate (settings.map Setting.tokens) ++ rest) = some (settings, rest) :=
  readList_all (fun setting listed => readSetting_all (balanced setting listed)) (fun _ _ => List.cons_ne_nil _ _) present stops

omit [DecidableEq V] in
private theorem settingsOf_all (settings : List (Setting V)) :
    settingsOf (settings.map (·.column)) (settings.map Setting.cast) = settings := by
  unfold settingsOf
  rw [List.zipWith_map, List.zipWith_self]
  exact List.map_id' _

private theorem readRow_all {settings : List (Setting V)} (balanced : ∀ setting ∈ settings, Balanced setting.type) (present : settings ≠ [])
    (rest : List (Filled V)) :
    readRow (symbol '(' :: (named (settings.map (·.column)) ',' ++ (symbol ')' :: word "VALUES" :: symbol '(' ::
      ([symbol ','].intercalate (settings.map fun setting => castTokens setting.cast) ++ symbol ')' :: rest)))) = some (settings, rest) := by
  have listed : settings.map (·.column) ≠ [] := by simpa using present
  have columns := readNames listed ',' (symbol ')' :: word "VALUES" :: symbol '(' ::
    ([symbol ','].intercalate (settings.map fun setting => castTokens setting.cast) ++ symbol ')' :: rest)) (by simp [symbol])
  have casts := readCasts balanced present (symbol ')' :: rest) (by simp [symbol])
  have given : expect (word "DEFAULT") (symbol '(' :: (named (settings.map (·.column)) ',' ++ (symbol ')' :: word "VALUES" :: symbol '(' ::
      ([symbol ','].intercalate (settings.map fun setting => castTokens setting.cast) ++ symbol ')' :: rest)))) = none :=
    expect_other (by simp [symbol, word])
  unfold readRow
  rw [given]
  simp [columns, casts, settingsOf_all]

private theorem readChange_insert {target : List Str} (present : target ≠ []) {settings : List (Setting V)}
    (balanced : ∀ setting ∈ settings, Balanced setting.type) (rest : List (Filled V)) :
    readChange ((Change.insert settings).tokens target ++ rest) = some ((target, .insert settings), rest) := by
  cases settings with
  | nil =>
    have targets := readNames present '.' (word "DEFAULT" :: word "VALUES" :: rest) (by simp [symbol, word])
    have reads : readChange ((Change.insert []).tokens target ++ rest) =
        readInsert (word "INTO" :: (named target '.' ++ word "DEFAULT" :: word "VALUES" :: rest)) := by
      simp only [Change.tokens, List.append_assoc, List.cons_append, List.nil_append]
      rfl
    rw [reads, readInsert, expect_same]
    simp [readTarget, targets, readRow]
  | cons setting settings =>
    have row := readRow_all balanced (List.cons_ne_nil setting settings) rest
    have reads : readChange ((Change.insert (setting :: settings)).tokens target ++ rest) =
        readInsert (word "INTO" :: (named target '.' ++ symbol '(' :: (named ((setting :: settings).map (·.column)) ',' ++
          (symbol ')' :: word "VALUES" :: symbol '(' ::
            ([symbol ','].intercalate ((setting :: settings).map fun setting => castTokens setting.cast) ++ symbol ')' :: rest))))) := by
      simp only [Change.tokens, List.append_assoc, List.cons_append, List.nil_append]
      rfl
    rw [reads, readInsert, expect_same, Option.bind_eq_bind, Option.bind_some, readTarget, readNames present _ _ (by simp [symbol])]
    simp only [Option.bind_eq_bind, Option.bind_some, row]

private theorem readChange_update {target : List Str} (present : target ≠ []) {settings : List (Setting V)} {key : Setting V}
    (balanced : ∀ setting ∈ settings, Balanced setting.type) (some : settings ≠ []) (closed : Balanced key.type) (rest : List (Filled V)) :
    readChange ((Change.update settings key).tokens target ++ rest) = .some ((target, .update settings key), rest) := by
  have reads : readChange ((Change.update settings key).tokens target ++ rest) =
      readUpdate (named target '.' ++ word "SET" :: ([symbol ','].intercalate (settings.map Setting.tokens) ++
        word "WHERE" :: (key.tokens ++ rest))) := by
    simp only [Change.tokens, List.append_assoc, List.cons_append, List.nil_append]
    rfl
  have listed := readSettings balanced some (word "WHERE" :: (key.tokens ++ rest)) (by simp [symbol, word])
  rw [reads, readUpdate, readTarget, readNames present _ _ (by simp [symbol, word])]
  simp only [Option.bind_eq_bind, Option.bind_some, expect_same, listed, readKey_all closed]

private theorem readChange_delete {target : List Str} (present : target ≠ []) {key : Setting V} (closed : Balanced key.type)
    (rest : List (Filled V)) :
    readChange ((Change.delete key).tokens target ++ rest) = some ((target, .delete key), rest) := by
  have reads : readChange ((Change.delete key).tokens target ++ rest) =
      readDelete (word "FROM" :: (named target '.' ++ word "WHERE" :: (key.tokens ++ rest))) := by
    simp only [Change.tokens, List.append_assoc, List.cons_append, List.nil_append]
    rfl
  rw [reads, readDelete, expect_same, Option.bind_eq_bind, Option.bind_some, readTarget, readNames present _ _ (by simp [symbol, word])]
  simp only [Option.bind_eq_bind, Option.bind_some, readKey_all closed]

/-- Every change that can be written so is read as what it is. -/
theorem parseChange_tokens {statement : ChangeStatement V} (formed : statement.WellFormed) :
    parseChange statement.tokens = some statement := by
  obtain ⟨target, change, returning⟩ := statement
  have returned := readNames (V := V) formed.returning ',' [] (by simp)
  have reads : readChange (change.tokens target ++ word "RETURNING" :: named returning ',') =
      some ((target, change), word "RETURNING" :: named returning ',') := by
    cases change with
    | insert settings => exact readChange_insert formed.target formed.settings _
    | update settings key => exact readChange_update formed.target formed.settings (formed.changes settings key rfl) (formed.key key rfl) _
    | delete key => exact readChange_delete formed.target (formed.key key rfl) _
  rw [List.append_nil] at returned
  unfold parseChange ChangeStatement.tokens
  rw [reads]
  simp [returned]

/-- What a database makes of the parts of a change: the rows it may make of the
settings of an insert, whether the key column of a row equals a key, the rows it may
make of one that is updated, and what it returns of a row. -/
structure Changer (Record V Output : Type) where
  makes : List Str → List (Setting V) → Record → Prop
  has : List Str → Setting V → Record → Bool
  sets : List Str → List (Setting V) → Record → Record → Prop
  shown : List Str → List Str → Record → Output

inductive RowChange (Record : Type)
  | added (row : Record)
  | replaced (old new : Record)
  | removed (old : Record)

/-- The rows of all tables, by the names that qualify each. -/
abbrev Tables (Record : Type) := List Str → List Record

variable {Record Output : Type}

/-- The order of the rows does not matter. -/
def RowChange.Turns : RowChange Record → List Record → List Record → Prop
  | .added row, before, after => after.Perm (row :: before)
  | .replaced old new, before, after => ∃ rest, before.Perm (old :: rest) ∧ after.Perm (new :: rest)
  | .removed old, before, after => before.Perm (old :: after)

/-- A change of one table. -/
def Alters (before : Tables Record) (change : List Str × RowChange Record) (after : Tables Record) : Prop :=
  change.2.Turns (before change.1) (after change.1) ∧ ∀ other, other ≠ change.1 → after other = before other

/-- What a statement does when it sees these rows: its changes, and what it returns
for each of them. -/
def ChangeStatement.Performs (changer : Changer Record V Output) (statement : ChangeStatement V) (rows : List Record)
    (changes : List (RowChange Record)) (returned : List Output) : Prop :=
  match statement.change with
  | .insert settings => ∃ row, changer.makes statement.target settings row ∧ changes = [.added row] ∧
      returned = [changer.shown statement.target statement.returning row]
  | .update settings key => ∃ pairs : List (Record × Record),
      (pairs.map (·.1)).Perm (rows.filter (changer.has statement.target key)) ∧
      (∀ pair ∈ pairs, changer.sets statement.target settings pair.1 pair.2) ∧
      changes = pairs.map (fun pair => .replaced pair.1 pair.2) ∧
      returned = pairs.map fun pair => changer.shown statement.target statement.returning pair.2
  | .delete key => ∃ gone : List Record, gone.Perm (rows.filter (changer.has statement.target key)) ∧
      changes = gone.map .removed ∧ returned = gone.map (changer.shown statement.target statement.returning)

/-- The one change of a statement that returns one row. -/
inductive ChangeStatement.Single (changer : Changer Record V Output) (statement : ChangeStatement V) (rows : List Record) :
    RowChange Record → Output → Prop
  | insert {settings row} : statement.change = .insert settings → changer.makes statement.target settings row →
      Single changer statement rows (.added row) (changer.shown statement.target statement.returning row)
  | update {settings key old new} : statement.change = .update settings key →
      rows.filter (changer.has statement.target key) = [old] → changer.sets statement.target settings old new →
      Single changer statement rows (.replaced old new) (changer.shown statement.target statement.returning new)
  | delete {key old} : statement.change = .delete key → rows.filter (changer.has statement.target key) = [old] →
      Single changer statement rows (.removed old) (changer.shown statement.target statement.returning old)

omit [DecidableEq V] in
/-- A statement that returns one row has changed one, and an update or a delete has
seen no other one with its key. -/
theorem ChangeStatement.Performs.single {changer : Changer Record V Output} {statement : ChangeStatement V} {rows : List Record}
    {changes : List (RowChange Record)} {output : Output} (performs : statement.Performs changer rows changes [output]) :
    ∃ change, changes = [change] ∧ statement.Single changer rows change output := by
  unfold Performs at performs
  split at performs
  next settings inserts =>
    obtain ⟨row, made, rfl, returned⟩ := performs
    cases returned
    exact ⟨_, rfl, .insert inserts made⟩
  next settings key updates =>
    obtain ⟨pairs, seen, sets, rfl, returned⟩ := performs
    obtain ⟨pair, rfl, rfl⟩ := List.map_eq_singleton_iff.mp returned.symm
    exact ⟨_, rfl, .update updates (List.perm_singleton.mp seen.symm) (sets pair List.mem_cons_self)⟩
  next key deletes =>
    obtain ⟨gone, seen, rfl, returned⟩ := performs
    obtain ⟨old, rfl, rfl⟩ := List.map_eq_singleton_iff.mp returned.symm
    exact ⟨_, rfl, .delete deletes (List.perm_singleton.mp seen.symm)⟩

end Sql
