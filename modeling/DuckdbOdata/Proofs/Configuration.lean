import DuckdbOdata.Proofs.Addressing

/-! The keys and the allow-list of a table. They are those of the last calls that
set them, as long as no call overwrites a binding that carries a setting of the
other kind. -/

namespace DuckdbOdata.Configuration
open Text FilterGrammar Registrations Addressing

/-- The keys that a call sets for the table. -/
def keysCalled (table : TableRow) : Session × Command → Option (List Str)
  | (session, .entity arg key) =>
    match keyedBinding session arg key with
    | .ok binding => if tableOf binding = table then some [key] else none
    | .error _ => none
  | _ => none

/-- The allow-list that a call sets for the table. -/
def columnsCalled (table : TableRow) : Session × Command → Option (List Str)
  | (session, .expose arg columns) =>
    match exposedBinding session arg columns with
    | .ok binding => if tableOf binding = table then some columns else none
    | .error _ => none
  | _ => none

/-- What the last call that sets anything has set. -/
def lastSet (sets : Session × Command → Option (List Str)) (history : List (Session × Command)) : List Str :=
  (history.reverse.findSome? sets).getD []

structure Settings where
  keys : TableRow → List Str
  columns : TableRow → List Str

def settingsOf (history : List (Session × Command)) : Settings where
  keys table := lastSet (keysCalled table) history
  columns table := lastSet (columnsCalled table) history

/-- The binding carries the settings of its table. -/
def Carries (settings : Settings) (binding : EntityBinding) : Prop :=
  binding.configuredKeys = settings.keys (tableOf binding) ∧ binding.configuredColumns = settings.columns (tableOf binding)

/-- A binding that a command overwrites loses nothing. -/
def Spared (command : Command) (old : EntityBinding) : Prop :=
  match command with
  | .expose _ _ => old.configuredKeys = []
  | .exposeSchema _ => old.configuredKeys = [] ∧ old.configuredColumns = []
  | .entity _ _ => True

/-- The call names each table as it is bound already and no other one, and the
binding it writes to loses nothing. -/
def Compatible (bindings : List EntityBinding) (call : Session × Command) : Prop :=
  ∀ registered, registrations call = .ok registered → ∀ new ∈ registered, ∀ old ∈ bindings,
    (sameName old.name new.name ↔ tableOf old = tableOf new) ∧ (tableOf old = tableOf new → Spared call.2 old)

theorem lastSet_append (sets : Session × Command → Option (List Str)) (history : List (Session × Command))
    (call : Session × Command) : lastSet sets (history ++ [call]) = (sets call).getD (lastSet sets history) := by
  unfold lastSet
  rw [List.reverse_append, List.reverse_singleton, List.singleton_append, List.findSome?_cons]
  cases sets call <;> rfl

/-- Every binding carries the settings, and a table without one has none. -/
structure Represents (settings : Settings) (bindings : List EntityBinding) : Prop where
  carried : ∀ binding ∈ bindings, Carries settings binding
  unset : ∀ table, (∀ binding ∈ bindings, tableOf binding ≠ table) → settings.keys table = [] ∧ settings.columns table = []

variable {before after : Settings} {bindings : List EntityBinding} {new : EntityBinding}

private theorem upsert_represents {update : EntityBinding → EntityBinding} (represents : Represents before bindings)
    (distinct : Distinct bindings) (named : ∀ old ∈ bindings, sameName old.name new.name ↔ tableOf old = tableOf new)
    (updated : ∀ old ∈ bindings, tableOf old = tableOf new → tableOf (update old) = tableOf new ∧ Carries after (update old))
    (fresh : (∀ old ∈ bindings, tableOf old ≠ tableOf new) → Carries after new)
    (others : ∀ table ≠ tableOf new, after.keys table = before.keys table ∧ after.columns table = before.columns table) :
    Represents after (upsert (fun old => sameName old.name new.name) update new bindings) := by
  constructor
  · intro item member
    rcases Upsert.mem_key (fun binding : EntityBinding => toLower binding.name) (fun _ => Iff.rfl) distinct member with
      ⟨kept, other⟩ | ⟨old, inside, same, rfl⟩ | ⟨rfl, none⟩
    · obtain ⟨keys, columns⟩ := others (tableOf item) fun same => other ((named item kept).mpr same)
      unfold Carries
      rw [keys, columns]
      exact represents.carried item kept
    · exact (updated old inside ((named old inside).mp same)).2
    · exact fresh fun old inside same => none old inside ((named old inside).mpr same)
  · intro table unbound
    have apart : table ≠ tableOf new := by
      rintro rfl
      rcases Upsert.written (fun old => sameName old.name new.name) update new bindings with ⟨old, inside, same, written⟩ | ⟨-, written⟩
      · exact unbound _ written (updated old inside ((named old inside).mp same)).1
      · exact unbound _ written rfl
    obtain ⟨keys, columns⟩ := others table apart
    rw [keys, columns]
    refine represents.unset table fun old inside same => ?_
    have remains : old ∈ upsert (fun old => sameName old.name new.name) update new bindings ∨ sameName old.name new.name :=
      (Upsert.kept inside).imp_right And.left
    rcases remains with kept | hit
    · exact unbound old kept same
    · exact apart (same.symm.trans ((named old inside).mp hit))

private theorem schema_represents {settings : Settings} {catalog schema front : Str} (registered : List EntityBinding)
    (uniform : ∀ new ∈ registered, Uniform catalog schema front new) (represents : Represents settings bindings)
    (distinct : Distinct bindings)
    (compatible : ∀ new ∈ registered, ∀ old ∈ bindings, (sameName old.name new.name ↔ tableOf old = tableOf new) ∧
      (tableOf old = tableOf new → old.configuredKeys = [] ∧ old.configuredColumns = [])) :
    Distinct (registered.foldl storeSchema bindings) ∧ Represents settings (registered.foldl storeSchema bindings) := by
  induction registered generalizing bindings with
  | nil => exact ⟨distinct, represents⟩
  | cons first others ih =>
    have named : ∀ old ∈ bindings, sameName old.name first.name ↔ tableOf old = tableOf first :=
      fun old member => (compatible first List.mem_cons_self old member).1
    have plain := uniform first List.mem_cons_self
    have unset : settings.keys (tableOf first) = [] ∧ settings.columns (tableOf first) = [] := by
      by_cases bound : ∃ old ∈ bindings, tableOf old = tableOf first
      · obtain ⟨old, member, same⟩ := bound
        obtain ⟨keys, columns⟩ := represents.carried old member
        obtain ⟨keyless, open'⟩ := (compatible first List.mem_cons_self old member).2 same
        rw [← same, ← keys, ← columns]
        exact ⟨keyless, open'⟩
      · exact represents.unset _ fun old member same => bound ⟨old, member, same⟩
    have carries : Carries settings first := ⟨plain.keys.trans unset.1.symm, plain.columns.trans unset.2.symm⟩
    rw [List.foldl_cons, storeSchema_named fun old member => (named old member).mp]
    refine ih (fun new member => uniform new (List.mem_cons_of_mem _ member)) ?_ (storeExposed_distinct first distinct) ?_
    · exact upsert_represents represents distinct named (fun _ _ _ => ⟨rfl, carries⟩) (fun _ => carries) fun _ _ => ⟨rfl, rfl⟩
    · intro new member old stored
      rcases storeExposed_mem stored with earlier | rfl
      · exact compatible new (List.mem_cons_of_mem _ member) old earlier
      · exact ⟨plain.named (uniform new (List.mem_cons_of_mem _ member)), fun _ => ⟨plain.keys, plain.columns⟩⟩

private theorem settings_schema {history : List (Session × Command)} {session : Session} {arg : Str} :
    settingsOf (history ++ [(session, .exposeSchema arg)]) = settingsOf history := by
  simp only [settingsOf, lastSet_append, keysCalled, columnsCalled, Option.getD_none]

private theorem settings_expose (history : List (Session × Command)) {session : Session} {arg : Str} {columns : List Str}
    {binding : EntityBinding} (parsed : exposedBinding session arg columns = .ok binding) (table : TableRow) :
    (settingsOf (history ++ [(session, .expose arg columns)])).keys table = (settingsOf history).keys table ∧
      (settingsOf (history ++ [(session, .expose arg columns)])).columns table =
        if tableOf binding = table then columns else (settingsOf history).columns table := by
  simp only [settingsOf, lastSet_append, keysCalled, columnsCalled, parsed, Option.getD_none, true_and]
  split <;> rfl

private theorem settings_entity (history : List (Session × Command)) {session : Session} {arg key : Str}
    {binding : EntityBinding} (parsed : keyedBinding session arg key = .ok binding) (table : TableRow) :
    (settingsOf (history ++ [(session, .entity arg key)])).columns table = (settingsOf history).columns table ∧
      (settingsOf (history ++ [(session, .entity arg key)])).keys table =
        if tableOf binding = table then [key] else (settingsOf history).keys table := by
  simp only [settingsOf, lastSet_append, keysCalled, columnsCalled, parsed, Option.getD_none, true_and]
  split <;> rfl

private theorem calls_represents {history : List (Session × Command)} {bindings stored : List EntityBinding}
    {call : Session × Command} (called : Calls bindings call stored) (distinct : Distinct bindings)
    (represents : Represents (settingsOf history) bindings) (compatible : Compatible bindings call) :
    Distinct stored ∧ Represents (settingsOf (history ++ [call])) stored := by
  obtain ⟨registered, given, rfl⟩ := calls_stores called
  obtain ⟨session, command⟩ := call
  cases command with
  | expose arg columns =>
    obtain ⟨binding, parsed, same⟩ := bind_ok given
    cases same
    obtain ⟨listed, keyless⟩ := exposedBinding_ok parsed
    have agree := compatible _ given binding List.mem_cons_self
    have settings := settings_expose history parsed
    have columnsSet := (settings (tableOf binding)).2
    rw [if_pos rfl] at columnsSet
    refine ⟨storeExposed_distinct binding distinct,
      upsert_represents represents distinct (fun old member => (agree old member).1) ?_ ?_ ?_⟩
    · intro old member same
      refine ⟨rfl, ?_, listed.trans columnsSet.symm⟩
      rw [keyless, (settings _).1, ← same, ← (represents.carried old member).1]
      exact ((agree old member).2 same).symm
    · intro none
      refine ⟨?_, listed.trans columnsSet.symm⟩
      rw [keyless, (settings _).1, (represents.unset _ none).1]
    · intro table other
      obtain ⟨keys, columns⟩ := settings table
      exact ⟨keys, columns.trans (if_neg other.symm)⟩
  | exposeSchema arg =>
    obtain ⟨catalog, schema, front, uniform⟩ := schemaBindings_uniform given
    rw [settings_schema]
    exact schema_represents registered uniform represents distinct (compatible _ given)
  | entity arg key =>
    obtain ⟨binding, parsed, same⟩ := bind_ok given
    cases same
    obtain ⟨unlisted, keyed⟩ := keyedBinding_ok parsed
    have agree := compatible _ given binding List.mem_cons_self
    have settings := settings_entity history parsed
    have keysSet := (settings (tableOf binding)).2
    rw [if_pos rfl] at keysSet
    refine ⟨storeKeyed_distinct binding distinct,
      upsert_represents represents distinct (fun old member => (agree old member).1) ?_ ?_ ?_⟩
    · intro old member same
      refine ⟨same, ?_, ?_⟩
      · change binding.configuredKeys = (settingsOf _).keys (tableOf old)
        rw [keyed, same, keysSet]
      · change old.configuredColumns = (settingsOf _).columns (tableOf old)
        rw [(settings _).1]
        exact (represents.carried old member).2
    · intro none
      refine ⟨keyed.trans keysSet.symm, ?_⟩
      rw [unlisted, (settings _).1, (represents.unset _ none).2]
    · intro table other
      obtain ⟨columns, keys⟩ := settings table
      exact ⟨keys.trans (if_neg other.symm), columns⟩

private theorem Compatible.unclaimed {bindings : List EntityBinding} {call : Session × Command}
    (compatible : Compatible bindings call) : Unclaimed bindings call :=
  fun _ registered given new member old inside => (compatible registered given new member old inside).1.mp

/-- If every call of a run is compatible, every exposed table has a binding, and
each binding carries the keys of the last `odata_entity` call for its table and
the allow-list of the last `odata_expose` call. -/
theorem carries_run {history : List (Session × Command)} {bindings : List EntityBinding} (run : Run Calls [] history bindings)
    (compatible : ∀ past call rest before, history = past ++ call :: rest → Run Calls [] past before → Compatible before call) :
    (∀ call ∈ history, ∀ table, Exposes call table → Bound bindings table) ∧
      ∀ binding ∈ bindings, Carries (settingsOf history) binding := by
  have kept : Distinct bindings ∧ Represents (settingsOf history) bindings := by
    refine run.history (fun past bindings => Distinct bindings ∧ Represents (settingsOf past) bindings) ?_ ?_
    · exact ⟨List.nodup_nil, fun _ member => absurd member List.not_mem_nil, fun _ _ => ⟨rfl, rfl⟩⟩
    · rintro past call rest before after whole sofar called ⟨distinct, represents⟩
      exact calls_represents called distinct represents (compatible past call rest before whole sofar)
  refine ⟨(bound_run run fun past call rest before whole sofar => ?_).2, kept.2.carried⟩
  exact (compatible past call rest before whole sofar).unclaimed

private def listed : Session × Command := (people, .expose "people".toList ["id".toList])

private def keyed : Session × Command := (people, .entity "people".toList "id".toList)

private def orders : Session × Command :=
  (sessionWith [peopleTable, ⟨"db".toList, "main".toList, "orders".toList⟩], .expose "orders".toList [])

private def boundOrders : EntityBinding where
  name := "orders".toList
  table := "orders".toList
  schema := "main".toList
  catalog := "db".toList

theorem carries_run_orders :
    (∀ call ∈ [listed, keyed, orders], ∀ table, Exposes call table → Bound [boundPeople ["id"] ["id"], boundOrders] table) ∧
      ∀ binding ∈ [boundPeople ["id"] ["id"], boundOrders], Carries (settingsOf [listed, keyed, orders]) binding := by
  have first : Compatible [] listed := fun _ _ _ _ old member => absurd member List.not_mem_nil
  have second : Compatible [boundPeople [] ["id"]] keyed := by
    intro registered given new inside old member
    cases given
    rw [List.mem_singleton.mp inside, List.mem_singleton.mp member]
    exact ⟨by decide, fun _ => trivial⟩
  have third : Compatible [boundPeople ["id"] ["id"]] orders := by
    intro registered given new inside old member
    cases given
    rw [List.mem_singleton.mp inside, List.mem_singleton.mp member]
    exact ⟨by decide, fun same => absurd same (by decide)⟩
  have compatible : Run (fun before call after => Calls before call after ∧ Compatible before call) [] [listed, keyed, orders]
      [boundPeople ["id"] ["id"], boundOrders] :=
    .next ⟨⟨_, rfl⟩, first⟩ (.next ⟨⟨_, rfl⟩, second⟩ (.single ⟨⟨_, rfl⟩, third⟩))
  have run := compatible.mono fun _ _ _ _ => And.left
  exact carries_run run fun past call rest before whole sofar => compatible.checked calls_functional whole sofar

/-- A key is lost when the table is exposed after it was configured, and an
allow-list when the schema is exposed. -/
theorem carries_overwritten :
    (∃ bindings, Run Calls [] [(people, .entity "people".toList "id".toList), listed] bindings ∧
      ¬ ∀ binding ∈ bindings, Carries (settingsOf [(people, .entity "people".toList "id".toList), listed]) binding) ∧
    ∃ bindings, Run Calls [] [listed, (people, .exposeSchema "main".toList)] bindings ∧
      ¬ ∀ binding ∈ bindings, Carries (settingsOf [listed, (people, .exposeSchema "main".toList)]) binding := by
  constructor
  · refine ⟨[boundPeople [] ["id"]], .next ⟨_, rfl⟩ (.single ⟨_, rfl⟩), fun carries => ?_⟩
    exact absurd (carries _ List.mem_cons_self).1 (by decide)
  · refine ⟨[boundPeople [] []], .next ⟨_, rfl⟩ (.single ⟨_, rfl⟩), fun carries => ?_⟩
    exact absurd (carries _ List.mem_cons_self).2 (by decide)

end DuckdbOdata.Configuration
