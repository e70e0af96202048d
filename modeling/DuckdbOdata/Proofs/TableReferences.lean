import DuckdbOdata.Proofs.Registrations

/-! What a table reference stands for. Its parts are the end of the path of the
one table that has them. -/

namespace DuckdbOdata.TableReferences
open Text FilterGrammar

/-- The table of a binding, as its names are spelled. -/
def placeOf (binding : EntityBinding) : TableRow := ⟨binding.catalog, binding.schema, binding.table⟩

def path (place : TableRow) : List Str := [place.databaseName, place.schemaName, place.tableName]

/-- The whole path, or without its catalog, or without its schema too. -/
theorem path_ends (place : TableRow) (whole schema : Prop) [Decidable whole] [Decidable schema] {parts : List Str}
    (same : parts = if whole then path place else if schema then [place.schemaName, place.tableName] else [place.tableName]) :
    parts <:+ path place ∧ parts ≠ [] := by
  subst same
  split
  next => exact ⟨List.suffix_refl _, List.cons_ne_nil _ _⟩
  split
  next => exact ⟨List.suffix_cons _ _, List.cons_ne_nil _ _⟩
  next => exact ⟨(List.suffix_cons _ _).trans (List.suffix_cons _ _), List.cons_ne_nil _ _⟩

/-- The parts of a reference. -/
def partsOf (reference : Str) : List Str := fields '.' (trim reference)

/-- One to three parts, none of them empty. -/
structure WellFormed (parts : List Str) : Prop where
  filled : [] ∉ parts
  listed : parts ≠ []
  few : parts.length ≤ 3

def bindingOf : List Str → EntityBinding
  | [table] => { table, name := table }
  | [schema, table] => { schema, table, name := schema ++ "_".toList ++ table }
  | [catalog, schema, table] => { catalog, schema, table, name := catalog ++ "_".toList ++ schema ++ "_".toList ++ table }
  | _ => {}

/-- The only table whose path ends in these parts. -/
def Sole (session : Session) (parts : List Str) (place : TableRow) : Prop :=
  ∃ rows, session.columnTables = .ok rows ∧ place ∈ rows ∧ parts <:+ path place ∧ ∀ row ∈ rows, parts <:+ path row → row = place

/-- The binding that a reference resolves to. -/
def Refers (session : Session) (reference : Str) (resolved : EntityBinding) : Prop :=
  ∃ parsed, parseQualifiedBinding reference = .ok parsed ∧ resolveBindingTable session parsed = .ok resolved

/-- Lists of one to three parts, by their length. -/
theorem WellFormed.shape {parts : List Str} (formed : WellFormed parts) :
    (∃ table, parts = [table]) ∨ (∃ schema table, parts = [schema, table] ∧ schema ≠ []) ∨
      ∃ catalog schema table, parts = [catalog, schema, table] ∧ catalog ≠ [] ∧ schema ≠ [] := by
  obtain ⟨filled, listed, few⟩ := formed
  rcases parts with _ | ⟨first, _ | ⟨second, _ | ⟨third, _ | ⟨fourth, others⟩⟩⟩⟩
  · exact absurd rfl listed
  · exact .inl ⟨first, rfl⟩
  · refine .inr (.inl ⟨first, second, rfl, ?_⟩)
    rintro rfl
    exact filled List.mem_cons_self
  · refine .inr (.inr ⟨first, second, third, rfl, ?_, ?_⟩)
    · rintro rfl
      exact filled List.mem_cons_self
    · rintro rfl
      exact filled (List.mem_cons_of_mem _ List.mem_cons_self)
  · simp only [List.length_cons] at few
    omega

theorem parseQualifiedBinding_iff {reference : Str} {parsed : EntityBinding} :
    parseQualifiedBinding reference = .ok parsed ↔ WellFormed (partsOf reference) ∧ parsed = bindingOf (partsOf reference) := by
  unfold parseQualifiedBinding partsOf
  simp only
  have listed := fields_ne_nil '.' (trim reference)
  by_cases empty : trim reference = []
  · rw [if_pos empty, empty]
    exact ⟨nofun, fun ⟨formed, _⟩ => absurd List.mem_cons_self formed.filled⟩
  rw [if_neg empty]
  generalize fields '.' (trim reference) = parts at listed
  by_cases gap : [] ∈ parts
  · rw [if_pos gap]
    exact ⟨nofun, fun ⟨formed, _⟩ => absurd gap formed.filled⟩
  rw [if_neg gap]
  split
  next table =>
    exact ⟨fun same => ⟨⟨gap, listed, by simp⟩, by cases same; rfl⟩, fun ⟨_, same⟩ => by rw [same]; rfl⟩
  next schema table =>
    exact ⟨fun same => ⟨⟨gap, listed, by simp⟩, by cases same; rfl⟩, fun ⟨_, same⟩ => by rw [same]; rfl⟩
  next catalog schema table =>
    exact ⟨fun same => ⟨⟨gap, listed, by simp⟩, by cases same; rfl⟩, fun ⟨_, same⟩ => by rw [same]; rfl⟩
  next one two three =>
    refine ⟨nofun, fun ⟨formed, _⟩ => ?_⟩
    rcases formed.shape with ⟨table, rfl⟩ | ⟨schema, table, rfl, -⟩ | ⟨catalog, schema, table, rfl, -⟩
    · exact (one table rfl).elim
    · exact (two schema table rfl).elim
    · exact (three catalog schema table rfl).elim

theorem bindingOf_name {parts : List Str} (formed : WellFormed parts) : (bindingOf parts).name = "_".toList.intercalate parts := by
  rcases formed.shape with ⟨table, rfl⟩ | ⟨schema, table, rfl, -⟩ | ⟨catalog, schema, table, rfl, -⟩
  all_goals simp [bindingOf]

private theorem suffix_path {parts : List Str} (row : TableRow) :
    parts <:+ path row ↔ parts = path row ∨ parts = [row.schemaName, row.tableName] ∨ parts = [row.tableName] ∨ parts = [] := by
  simp [path, List.suffix_cons_iff]

theorem bindingOf_locates {parts : List Str} (formed : WellFormed parts) (row : TableRow) :
    (bindingOf parts).locates row ↔ parts <:+ path row := by
  rw [suffix_path]
  rcases formed.shape with ⟨table, rfl⟩ | ⟨schema, table, rfl, some⟩ | ⟨catalog, schema, table, rfl, some, other⟩
  all_goals
    simp only [bindingOf, EntityBinding.locates, path]
    grind

private theorem introspected_ok {answer : Except Str α} {value : α} : introspected answer = .ok value ↔ answer = .ok value := by
  cases answer with
  | error message => exact ⟨nofun, nofun⟩
  | ok found => exact Except.ok.injEq found value ▸ Except.ok.injEq found value ▸ Iff.rfl

private theorem dedup_single [DecidableEq α] {items : List α} {item : α} :
    items.dedup = [item] ↔ item ∈ items ∧ ∀ other ∈ items, other = item := by
  constructor
  · intro single
    refine ⟨List.mem_dedup.mp (single ▸ List.mem_cons_self), fun other listed => ?_⟩
    exact List.mem_singleton.mp (single ▸ List.mem_dedup.mpr listed)
  · rintro ⟨listed, unique⟩
    have distinct := List.nodup_dedup items
    have member := List.mem_dedup.mpr listed
    have all : ∀ other ∈ items.dedup, other = item := fun other inside => unique other (List.mem_dedup.mp inside)
    cases shape : items.dedup with
    | nil => rw [shape] at member; cases member
    | cons first others =>
      rw [shape] at distinct all
      obtain ⟨apart, -⟩ := List.nodup_cons.mp distinct
      obtain rfl := all first List.mem_cons_self
      cases others with
      | nil => rfl
      | cons second others =>
        obtain rfl := all second (List.mem_cons_of_mem _ List.mem_cons_self)
        exact absurd List.mem_cons_self apart

variable {session : Session} {binding resolved : EntityBinding} {parts : List Str}

private def located (binding : EntityBinding) (rows : List TableRow) : List (Str × Str) :=
  (rows.filter (binding.locates ·)).map fun row => (row.databaseName, row.schemaName)

private theorem mem_located {rows : List TableRow} {item : Str × Str} :
    item ∈ located binding rows ↔ ∃ row ∈ rows, binding.locates row ∧ (row.databaseName, row.schemaName) = item := by
  simp [located, and_assoc]

private theorem resolve_located : resolveBindingTable session binding = .ok resolved ↔
    ∃ rows catalog schema others, session.columnTables = .ok rows ∧ (located binding rows).dedup = (catalog, schema) :: others ∧
      (binding.catalog = [] → others = []) ∧ resolved = { binding with catalog, schema } := by
  constructor
  · intro done
    obtain ⟨found, answered, done⟩ := bind_ok done
    obtain ⟨rows, listed, same⟩ := bind_ok (introspected_ok.mp answered)
    have shape : (located binding rows).dedup = found := by simpa [located] using same
    split at done
    next =>
      split at done
      next => cases done
      next catalog schema =>
        cases done
        exact ⟨rows, catalog, schema, [], listed, shape, fun _ => rfl, rfl⟩
      next => cases done
    next =>
      split at done
      next => cases done
      next catalog schema others =>
        split at done
        next => cases done
        next clear =>
          cases done
          refine ⟨rows, catalog, schema, others, listed, shape, fun empty => ?_, rfl⟩
          by_contra more
          exact clear ⟨empty, more⟩
  · rintro ⟨rows, catalog, schema, others, listed, shape, clear, rfl⟩
    have answered : introspected (locations session binding) = .ok ((catalog, schema) :: others) := by
      rw [introspected_ok, locations, listed, ← shape]
      rfl
    rw [resolveBindingTable, answered]
    change (if _ then _ else _) = _
    split
    next bare =>
      obtain rfl := clear bare.2
      rfl
    next =>
      rw [if_neg fun more => more.2 (clear more.1)]

theorem resolveBindingTable_iff (formed : WellFormed parts) : resolveBindingTable session (bindingOf parts) = .ok resolved ↔
    ∃ place, Sole session parts place ∧
      resolved = { bindingOf parts with catalog := place.databaseName, schema := place.schemaName } := by
  rw [resolve_located]
  constructor
  · rintro ⟨rows, catalog, schema, others, listed, shape, clear, rfl⟩
    have first : (catalog, schema) ∈ located (bindingOf parts) rows := List.mem_dedup.mp (shape ▸ List.mem_cons_self)
    have same : ∀ item ∈ located (bindingOf parts) rows, item = (catalog, schema) := by
      by_cases bare : (bindingOf parts).catalog = []
      · obtain rfl := clear bare
        exact (dedup_single.mp shape).2
      · intro item member
        obtain ⟨row, -, here, rfl⟩ := mem_located.mp member
        obtain ⟨other, -, there, whole⟩ := mem_located.mp first
        rw [← whole]
        rcases formed.shape with ⟨table, rfl⟩ | ⟨_, table, rfl, -⟩ | ⟨database, _, table, rfl, some, known⟩
        · exact absurd rfl bare
        · exact absurd rfl bare
        · rw [here.2.2.resolve_left some, here.2.1.resolve_left known, there.2.2.resolve_left some, there.2.1.resolve_left known]
    obtain ⟨place, inside, found, whole⟩ := mem_located.mp first
    refine ⟨place, ⟨rows, listed, inside, (bindingOf_locates formed place).mp found, fun row member ends => ?_⟩, ?_⟩
    · have here := (bindingOf_locates formed row).mpr ends
      have agree := (same _ (mem_located.mpr ⟨row, member, here, rfl⟩)).trans whole.symm
      cases row
      cases place
      cases agree
      simp only [TableRow.mk.injEq, true_and]
      exact here.1.trans found.1.symm
    · cases whole
      rfl
  · rintro ⟨place, ⟨rows, listed, inside, ends, unique⟩, rfl⟩
    refine ⟨rows, place.databaseName, place.schemaName, [], listed, dedup_single.mpr ⟨?_, ?_⟩, fun _ => rfl, rfl⟩
    · exact mem_located.mpr ⟨place, inside, (bindingOf_locates formed place).mpr ends, rfl⟩
    · intro item member
      obtain ⟨row, other, here, rfl⟩ := mem_located.mp member
      rw [unique row other ((bindingOf_locates formed row).mp here)]

/-- What a reference is resolved to, by its parts. -/
theorem refers_iff {reference : Str} : Refers session reference resolved ↔ WellFormed (partsOf reference) ∧
    ∃ place, Sole session (partsOf reference) place ∧
      resolved = { bindingOf (partsOf reference) with catalog := place.databaseName, schema := place.schemaName } := by
  constructor
  · rintro ⟨parsed, spelled, done⟩
    obtain ⟨formed, rfl⟩ := parseQualifiedBinding_iff.mp spelled
    exact ⟨formed, (resolveBindingTable_iff formed).mp done⟩
  · rintro ⟨formed, found⟩
    exact ⟨_, parseQualifiedBinding_iff.mpr ⟨formed, rfl⟩, (resolveBindingTable_iff formed).mpr found⟩

/-- The place of the resolved binding. -/
theorem Sole.place {place : TableRow} (formed : WellFormed parts) (sole : Sole session parts place) :
    placeOf { bindingOf parts with catalog := place.databaseName, schema := place.schemaName } = place := by
  obtain ⟨rows, listed, inside, ends, unique⟩ := sole
  have table : place.tableName = (bindingOf parts).table := ((bindingOf_locates formed place).mpr ends).1
  rw [placeOf, ← table]

/-- The binding has the name that its reference spells, at the place where its
reference is found. -/
theorem Refers.named {reference : Str} (refers : Refers session reference resolved) :
    WellFormed (partsOf reference) ∧ Sole session (partsOf reference) (placeOf resolved) ∧
      resolved.name = "_".toList.intercalate (partsOf reference) := by
  obtain ⟨formed, place, sole, rfl⟩ := refers_iff.mp refers
  refine ⟨formed, ?_, bindingOf_name formed⟩
  rw [sole.place formed]
  exact sole

end DuckdbOdata.TableReferences
