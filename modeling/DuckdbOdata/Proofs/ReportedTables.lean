import DuckdbOdata.Foundation.Trimming
import DuckdbOdata.Proofs.EntityNames

/-! The table that a command reports for a binding, given back to a command. It
leads to the same binding only if the catalog and the registry leave no doubt. -/

namespace DuckdbOdata.ReportedTables
open Text FilterGrammar Registrations TableReferences

/-- What is shown of the place of a binding. -/
def shownParts (session : Session) (binding : EntityBinding) : List Str :=
  if binding.catalog ≠ [] ∧ binding.catalog ≠ scalarQueryResult session.currentCatalog then path (placeOf binding)
  else if binding.schema ≠ [] ∧ binding.schema ≠ scalarQueryResult session.currentSchema then [binding.schema, binding.table]
  else [binding.table]

/-- The reported table. -/
def reported (session : Session) (binding : EntityBinding) : Str := (reportRow session binding).2

/-- The commands that refer to one table; the column list of the first one is left out. -/
def refersTo (command : Command) (reference : Str) : Prop :=
  command = .expose reference [] ∨ ∃ key, key ≠ [] ∧ command = .entity reference key

/-- The command succeeds, means the table of `binding`, and finds `binding`
under the name that it gives to the table, so that no binding is added. -/
def Updates (session : Session) (bindings : List EntityBinding) (binding : EntityBinding) (command : Command) : Prop :=
  ∃ after resolved, Calls bindings (session, command) after ∧ registrations (session, command) = .ok [resolved] ∧
    placeOf resolved = placeOf binding ∧ findBinding bindings resolved.name = some binding ∧ after.length = bindings.length

def RoundTrips (session : Session) (bindings : List EntityBinding) (binding : EntityBinding) : Prop :=
  ∀ command, refersTo command (reported session binding) → Updates session bindings binding command

/-- The names shown are not empty and contain no dot, the reference has no blank
at its ends, only one table matches it, and the name it spells is bound to
`binding` first. -/
structure Unambiguous (session : Session) (bindings : List EntityBinding) (binding : EntityBinding) : Prop where
  plain : ∀ part ∈ shownParts session binding, part ≠ [] ∧ '.' ∉ part
  trimmed : trim (reported session binding) = reported session binding
  sole : Sole session (shownParts session binding) (placeOf binding)
  bound : findBinding bindings ("_".toList.intercalate (shownParts session binding)) = some binding

variable {session : Session} {bindings : List EntityBinding} {binding : EntityBinding}

theorem reported_parts (session : Session) (binding : EntityBinding) :
    reported session binding = ['.'].intercalate (shownParts session binding) := by
  unfold reported reportRow bindingTableRef shownParts
  dsimp only
  split
  · simp [path, placeOf]
  split
  · simp
  · simp

private theorem shownParts_path (session : Session) (binding : EntityBinding) :
    shownParts session binding <:+ path (placeOf binding) := (path_ends (placeOf binding) _ _ rfl).1

private theorem shownParts_ne_nil (session : Session) (binding : EntityBinding) : shownParts session binding ≠ [] :=
  (path_ends (placeOf binding) _ _ rfl).2

private theorem parts_shown {parts shown path : List Str} (one : parts <:+ path) (other : shown <:+ path) (listed : parts ≠ [])
    (nonempty : shown ≠ []) (joined : ['.'].intercalate parts = trim (['.'].intercalate shown)) : parts = shown := by
  have dots : (trim (['.'].intercalate shown)).count '.' = (['.'].intercalate shown).count '.' := Trimming.trimBy_count (by decide) _
  have shorter : (trim (['.'].intercalate shown)).length ≤ (['.'].intercalate shown).length := Trimming.trimBy_length _
  rw [← joined] at dots shorter
  rcases Nat.le_total parts.length shown.length with fewer | more
  · obtain ⟨extra, rfl⟩ := List.suffix_of_suffix_length_le one other fewer
    cases extra with
    | nil => rfl
    | cons item extra =>
      rw [intercalate_append (List.cons_ne_nil item extra) listed, List.count_append, List.count_append] at dots
      have point : ['.'].count '.' = 1 := rfl
      omega
  · obtain ⟨extra, rfl⟩ := List.suffix_of_suffix_length_le other one more
    cases extra with
    | nil => rfl
    | cons item extra =>
      rw [intercalate_append (List.cons_ne_nil item extra) nonempty] at shorter
      simp only [List.length_append, List.length_singleton] at shorter
      omega

private theorem exposedBinding_refers {reference : Str} {resolved : EntityBinding} :
    exposedBinding session reference [] = .ok resolved ↔ Refers session reference resolved := by
  constructor
  · intro done
    obtain ⟨parsed, first, done⟩ := bind_ok done
    obtain ⟨found, second, done⟩ := bind_ok done
    obtain ⟨-, -, same⟩ := bind_ok done
    cases same
    refine ⟨parsed, first, second.trans ?_⟩
    obtain ⟨catalog, schema, rfl⟩ := resolveBindingTable_ok second
    rw [(parseQualifiedBinding_plain first).2]
  · rintro ⟨parsed, first, second⟩
    obtain ⟨catalog, schema, rfl⟩ := resolveBindingTable_ok second
    have plain := (parseQualifiedBinding_plain first).2
    rw [exposedBinding, first]
    simp only [bind, Except.bind, second, checkColumns, if_true]
    rw [← plain]

private theorem keyedBinding_refers (key : Str) {reference : Str} {resolved : EntityBinding} (refers : Refers session reference resolved) :
    keyedBinding session reference key = .ok { resolved with configuredKeys := [key] } := by
  obtain ⟨parsed, first, second⟩ := refers
  rw [keyedBinding, first]
  simp only [bind, Except.bind, second]

private theorem found_length {update : EntityBinding → EntityBinding} {fresh : EntityBinding}
    (found : findBinding bindings fresh.name = some binding) :
    (upsert (fun old => sameName old.name fresh.name) update fresh bindings).length = bindings.length := by
  unfold findBinding at found
  exact Upsert.length_hit ⟨binding, List.mem_of_find?_eq_some found, by simpa using List.find?_some found⟩

private theorem expose_updates {reference : Str} {resolved : EntityBinding} (given : reference ≠ [])
    (refers : Refers session reference resolved) (place : placeOf resolved = placeOf binding)
    (found : findBinding bindings resolved.name = some binding) :
    Updates session bindings binding (.expose reference []) := by
  have exposed := exposedBinding_refers.mpr refers
  refine ⟨storeExposed bindings resolved, resolved, ⟨[reportRow session resolved], ?_⟩, ?_, place, found, found_length found⟩
  · rw [Command.execute, exposeExecute, if_neg given, exposed]
    rfl
  · rw [registrations, exposed]
    rfl

private theorem entity_updates {reference key : Str} {resolved : EntityBinding} (given : reference ≠ []) (keyed : key ≠ [])
    (refers : Refers session reference resolved) (place : placeOf resolved = placeOf binding)
    (found : findBinding bindings resolved.name = some binding) :
    Updates session bindings binding (.entity reference key) := by
  have configured := keyedBinding_refers key refers
  refine ⟨storeKeyed bindings { resolved with configuredKeys := [key] }, { resolved with configuredKeys := [key] }, ⟨[], ?_⟩, ?_,
    place, found, found_length found⟩
  · rw [Command.execute, entityExecute, if_neg (not_or.mpr ⟨given, keyed⟩), configured]
    rfl
  · rw [registrations, configured]
    rfl

/-- The reported table leads back to its binding exactly if it is unambiguous. -/
theorem roundTrips_iff (session : Session) (bindings : List EntityBinding) (binding : EntityBinding) :
    RoundTrips session bindings binding ↔ Unambiguous session bindings binding := by
  have joined := reported_parts session binding
  constructor
  · intro returns
    obtain ⟨after, resolved, -, registered, place, found, -⟩ := returns _ (.inl rfl)
    obtain ⟨other, exposed, same⟩ := bind_ok registered
    cases same
    obtain ⟨formed, sole, named⟩ := (exposedBinding_refers.mp exposed).named
    rw [place] at sole
    obtain ⟨rows, listed, inside, ends, unique⟩ := sole
    have whole := intercalate_fields '.' (trim (reported session binding))
    have parts : partsOf (reported session binding) = shownParts session binding := by
      refine parts_shown ends (shownParts_path session binding) formed.listed (shownParts_ne_nil session binding) ?_
      rw [← joined]
      exact whole
    refine ⟨fun part shown => ⟨?_, ?_⟩, ?_, ?_, ?_⟩
    · rintro rfl
      exact formed.filled (parts ▸ shown)
    · exact fields_free (parts ▸ shown : part ∈ partsOf (reported session binding))
    · calc trim (reported session binding) = ['.'].intercalate (partsOf (reported session binding)) := whole.symm
        _ = reported session binding := by rw [parts, joined]
    · rw [← parts]
      exact ⟨rows, listed, inside, ends, unique⟩
    · rw [← parts, ← named]
      exact found
  · intro clear
    have formed : WellFormed (shownParts session binding) := by
      refine ⟨fun empty => (clear.plain [] empty).1 rfl, shownParts_ne_nil session binding, ?_⟩
      exact (shownParts_path session binding).length_le
    have parts : partsOf (reported session binding) = shownParts session binding := by
      rw [partsOf, clear.trimmed, joined]
      exact fields_intercalate (fun part shown => (clear.plain part shown).2) formed.listed
    have given : reported session binding ≠ [] := by
      intro empty
      rw [empty] at parts
      exact formed.filled (parts ▸ List.mem_cons_self)
    obtain ⟨resolved, refers⟩ : ∃ resolved, Refers session (reported session binding) resolved := by
      refine ⟨_, refers_iff.mpr ⟨?_, placeOf binding, ?_, rfl⟩⟩
      · exact parts ▸ formed
      · exact parts ▸ clear.sole
    obtain ⟨-, sole, named⟩ := refers.named
    rw [parts] at sole named
    have bound : findBinding bindings resolved.name = some binding := named ▸ clear.bound
    have place : placeOf resolved = placeOf binding := by
      obtain ⟨rows, listed, -, -, unique⟩ := clear.sole
      obtain ⟨others, again, inside, ends, -⟩ := sole
      cases listed.symm.trans again
      exact unique _ inside ends
    rintro command (rfl | ⟨key, filled, rfl⟩)
    · exact expose_updates given refers place bound
    · exact entity_updates given filled refers place bound

private def shop : Session where
  columns _ := .ok []
  primaryKeys _ := .ok []
  columnTables := .ok [⟨"db".toList, "main".toList, "people".toList⟩]
  baseTables := .ok [⟨"db".toList, "main".toList, "people".toList⟩]
  currentSchema := .ok "main".toList
  currentCatalog := .ok "db".toList

private def mainPeople : EntityBinding where
  name := "main_people".toList
  table := "people".toList
  schema := "main".toList
  catalog := "db".toList

/-- `main.people` is bound as `main_people` and reported as `people`, which names
another binding. -/
theorem roundTrips_main : Calls [] (shop, .expose "main.people".toList []) [mainPeople] ∧
    ¬ RoundTrips shop [mainPeople] mainPeople := by
  refine ⟨⟨_, rfl⟩, fun returns => ?_⟩
  obtain ⟨after, resolved, -, registered, -, found, -⟩ := returns (.expose "people".toList []) (.inl rfl)
  obtain rfl : resolved = { mainPeople with name := "people".toList } := by
    cases registered
    rfl
  cases found

end DuckdbOdata.ReportedTables
