import DuckdbOdata.Foundation.Run
import DuckdbOdata.Proofs.Registrations

/-! The names of the registry. As long as no call registers a name that is bound
to another table, names stay distinct and every exposed table keeps one. -/

namespace DuckdbOdata.Addressing
open Text FilterGrammar Registrations

/-- A call of one of the two exposing commands that exposes the table. -/
def Exposes (call : Session × Command) (table : TableRow) : Prop :=
  (∀ arg key, call.2 ≠ .entity arg key) ∧
    ∃ registered, registrations call = .ok registered ∧ ∃ binding ∈ registered, tableOf binding = table

structure Addressed (history : List (Session × Command)) (bindings : List EntityBinding) : Prop where
  distinct : Distinct bindings
  reachable : ∀ call ∈ history, ∀ table, Exposes call table →
    ∃ binding ∈ bindings, tableOf binding = table ∧ findBinding bindings binding.name = some binding

/-- No name that an exposing call registers is bound to a different table. -/
def Unclaimed (bindings : List EntityBinding) (call : Session × Command) : Prop :=
  (∀ arg key, call.2 ≠ .entity arg key) → ∀ registered, registrations call = .ok registered → ∀ new ∈ registered,
    ∀ old ∈ bindings, sameName old.name new.name → tableOf old = tableOf new

/-- The table has a binding. -/
def Bound (bindings : List EntityBinding) (table : TableRow) : Prop := ∃ binding ∈ bindings, tableOf binding = table

variable {bindings : List EntityBinding} {binding : EntityBinding}

private theorem storeExposed_bound (agree : ∀ old ∈ bindings, sameName old.name binding.name → tableOf old = tableOf binding)
    {table : TableRow} (bound : Bound bindings table) : Bound (storeExposed bindings binding) table := by
  obtain ⟨old, member, rfl⟩ := bound
  rcases storeExposed_kept member with kept | ⟨same, written⟩
  · exact ⟨old, kept, rfl⟩
  · exact ⟨binding, written, (agree old member same).symm⟩

private theorem storeKeyed_bound {table : TableRow} (bound : Bound bindings table) : Bound (storeKeyed bindings binding) table := by
  obtain ⟨old, member, rfl⟩ := bound
  rcases storeKeyed_kept member with kept | ⟨-, written⟩
  · exact ⟨old, kept, rfl⟩
  · exact ⟨_, written, rfl⟩

private theorem schema_bound {catalog schema front : Str} (registered : List EntityBinding)
    (uniform : ∀ new ∈ registered, Uniform catalog schema front new) (distinct : Distinct bindings)
    (agree : ∀ new ∈ registered, ∀ old ∈ bindings, sameName old.name new.name → tableOf old = tableOf new) :
    Distinct (registered.foldl storeSchema bindings) ∧
      (∀ table, Bound bindings table → Bound (registered.foldl storeSchema bindings) table) ∧
      ∀ new ∈ registered, Bound (registered.foldl storeSchema bindings) (tableOf new) := by
  induction registered generalizing bindings with
  | nil => exact ⟨distinct, fun _ bound => bound, fun _ member => absurd member List.not_mem_nil⟩
  | cons first others ih =>
    have named := agree first List.mem_cons_self
    rw [List.foldl_cons, storeSchema_named named]
    have later : ∀ new ∈ others, ∀ old ∈ storeExposed bindings first, sameName old.name new.name → tableOf old = tableOf new := by
      intro new member old stored same
      rcases storeExposed_mem stored with before | rfl
      · exact agree new (List.mem_cons_of_mem _ member) old before same
      · exact ((uniform old List.mem_cons_self).named (uniform new (List.mem_cons_of_mem _ member))).mp same
    obtain ⟨apart, grows, rest⟩ := ih (fun new member => uniform new (List.mem_cons_of_mem _ member))
      (storeExposed_distinct first distinct) later
    refine ⟨apart, fun table bound => grows table (storeExposed_bound named bound), fun new member => ?_⟩
    rcases List.mem_cons.mp member with rfl | member
    · exact grows _ ⟨_, storeExposed_written _ _, rfl⟩
    · exact rest new member

private theorem calls_bound {before after : List EntityBinding} {call : Session × Command} (called : Calls before call after)
    (distinct : Distinct before) (unclaimed : Unclaimed before call) :
    Distinct after ∧ (∀ table, Bound before table → Bound after table) ∧ ∀ table, Exposes call table → Bound after table := by
  obtain ⟨registered, given, rfl⟩ := calls_stores called
  obtain ⟨session, command⟩ := call
  cases command with
  | expose arg columns =>
    obtain ⟨binding, -, same⟩ := bind_ok given
    cases same
    have agree := unclaimed nofun _ given binding List.mem_cons_self
    refine ⟨storeExposed_distinct binding distinct, fun table bound => storeExposed_bound agree bound, ?_⟩
    rintro table ⟨-, registered, given', new, member, rfl⟩
    cases given.symm.trans given'
    exact ⟨_, List.mem_singleton.mp member ▸ storeExposed_written before binding, rfl⟩
  | exposeSchema arg =>
    obtain ⟨catalog, schema, front, uniform⟩ := schemaBindings_uniform given
    obtain ⟨apart, kept, added⟩ := schema_bound registered uniform distinct (unclaimed nofun _ given)
    refine ⟨apart, kept, ?_⟩
    rintro table ⟨-, registered', given', new, member, rfl⟩
    cases given.symm.trans given'
    exact added new member
  | entity arg key =>
    obtain ⟨binding, -, same⟩ := bind_ok given
    cases same
    exact ⟨storeKeyed_distinct binding distinct, fun table bound => storeKeyed_bound bound,
      fun table exposes => absurd rfl (exposes.1 arg key)⟩

/-- Along a run, an exposed table keeps a binding. -/
theorem bound_run {history : List (Session × Command)} {bindings : List EntityBinding} (run : Run Calls [] history bindings)
    (unclaimed : ∀ past call rest before, history = past ++ call :: rest → Run Calls [] past before → Unclaimed before call) :
    Distinct bindings ∧ ∀ call ∈ history, ∀ table, Exposes call table → Bound bindings table := by
  refine run.history (fun past bindings => Distinct bindings ∧ ∀ call ∈ past, ∀ table, Exposes call table → Bound bindings table)
    ⟨List.nodup_nil, fun _ member => absurd member List.not_mem_nil⟩ ?_
  rintro past call rest before after whole sofar called ⟨distinct, bound⟩
  obtain ⟨apart, kept, added⟩ := calls_bound called distinct (unclaimed past call rest before whole sofar)
  refine ⟨apart, fun other member table exposes => ?_⟩
  rcases List.mem_append.mp member with earlier | now
  · exact kept table (bound other earlier table exposes)
  · exact added table (List.mem_singleton.mp now ▸ exposes)

/-- If no call of a run registers a name that is bound to a different table,
the names are distinct and every exposed table is found under a name. -/
theorem addressed_run {history : List (Session × Command)} {bindings : List EntityBinding} (run : Run Calls [] history bindings)
    (unclaimed : ∀ past call rest before, history = past ++ call :: rest → Run Calls [] past before → Unclaimed before call) :
    Addressed history bindings := by
  obtain ⟨distinct, bound⟩ := bound_run run unclaimed
  refine ⟨distinct, fun call member table exposes => ?_⟩
  obtain ⟨binding, inside, same⟩ := bound call member table exposes
  exact ⟨binding, inside, same, findBinding_distinct distinct inside⟩

private def twoSchemas : Session where
  columns _ := .ok []
  primaryKeys _ := .ok []
  columnTables := .ok [⟨"db".toList, "main".toList, "s1_t".toList⟩, ⟨"db".toList, "s1".toList, "t".toList⟩]
  baseTables := .ok [⟨"db".toList, "main".toList, "s1_t".toList⟩, ⟨"db".toList, "s1".toList, "t".toList⟩]
  currentSchema := .ok "main".toList
  currentCatalog := .ok "db".toList

private def exposeTable (table : String) : Session × Command := (twoSchemas, .expose table.toList [])

private def exposedTable (schema table : String) : EntityBinding where
  name := "s1_t".toList
  table := table.toList
  schema := schema.toList
  catalog := "db".toList

private def exposePeople : Session × Command := (people, .expose "people".toList [])

private def exposeSchema : Session × Command := (twoSchemas, .exposeSchema "s1".toList)

theorem addressed_run_schema :
    Addressed [exposeTable "s1.t", exposePeople, exposeSchema] [exposedTable "s1" "t", boundPeople [] []] := by
  have first : Unclaimed [] (exposeTable "s1.t") := fun _ _ _ _ _ old member => absurd member List.not_mem_nil
  have second : Unclaimed [exposedTable "s1" "t"] exposePeople := by
    intro _ registered given new inside old member
    cases given
    rw [List.mem_singleton.mp inside, List.mem_singleton.mp member]
    decide
  have third : Unclaimed [exposedTable "s1" "t", boundPeople [] []] exposeSchema := by
    intro _ registered given new inside old member
    cases given
    rw [List.mem_singleton.mp inside]
    rcases List.mem_pair.mp member with rfl | rfl
    · decide
    · decide
  have unclaimed : Run (fun before call after => Calls before call after ∧ Unclaimed before call) []
      [exposeTable "s1.t", exposePeople, exposeSchema] [exposedTable "s1" "t", boundPeople [] []] :=
    .next ⟨⟨_, rfl⟩, first⟩ (.next ⟨⟨_, rfl⟩, second⟩ (.single ⟨⟨_, rfl⟩, third⟩))
  have run := unclaimed.mono fun _ _ _ _ => And.left
  exact addressed_run run fun past call rest before whole sofar => unclaimed.checked calls_functional whole sofar

/-- `s1.t` and `s1_t` are both named `s1_t`: the second one hides the first. -/
theorem addressed_clash : ∃ bindings, Run Calls [] [exposeTable "s1.t", exposeTable "s1_t"] bindings ∧
    ¬ Addressed [exposeTable "s1.t", exposeTable "s1_t"] bindings := by
  refine ⟨[exposedTable "main" "s1_t"], .next ⟨_, rfl⟩ (.single ⟨_, rfl⟩), fun addressed => ?_⟩
  have exposes : Exposes (exposeTable "s1.t") (tableOf (exposedTable "s1" "t")) :=
    ⟨nofun, _, rfl, _, List.mem_cons_self, rfl⟩
  obtain ⟨binding, member, same, -⟩ := addressed.reachable _ List.mem_cons_self _ exposes
  rw [List.mem_singleton.mp member] at same
  exact absurd same (by decide)

end DuckdbOdata.Addressing
