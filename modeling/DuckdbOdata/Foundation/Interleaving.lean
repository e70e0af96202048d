import DuckdbOdata.Foundation.Instances
import DuckdbOdata.Foundation.Program
import DuckdbOdata.Foundation.Run

/-! Programs that run at the same time. Each has a state of its own, and its calls
may have effects on a state that all of them share. -/

namespace Interleaving
open Instances

variable {Op : Type} {Answer : Op → Type} {α Shared Own Effect : Type}

/-- A call that finds the shared state so: its answer, its effects in their order, and
the state of the program before and after it. -/
abbrev Call (Answer : Op → Type) (Shared Own Effect : Type) := Shared → Own → (op : Op) → Answer op → List Effect → Own → Prop

/-- The shared state, and the state and the rest of every program. -/
structure Pool (Answer : Op → Type) (α Shared Own : Type) where
  shared : Shared
  threads : List (Own × Program Op Answer α)

/-- One of the programs makes its next call. -/
inductive Moves (call : Call Answer Shared Own Effect) (applies : Shared → Effect → Shared → Prop) :
    Pool Answer α Shared Own → Nat → Pool Answer α Shared Own → Prop
  | move {pool i before op next answer effects after shared} : pool.threads[i]? = some (before, .ask op next) →
      call pool.shared before op answer effects after → Run applies pool.shared effects shared →
      Moves call applies pool i ⟨shared, pool.threads.set i (after, next answer)⟩

/-- A call as its program sees it, with all effects that the program has had: the
shared state is one that it may see. -/
def Alone (call : Call Answer Shared Own Effect) (sees : List Effect → Shared → Prop) (before : Own × List Effect) (op : Op)
    (answer : Answer op) (after : Own × List Effect) : Prop :=
  ∃ shared effects, sees before.2 shared ∧ call shared before.1 op answer effects after.1 ∧ after.2 = before.2 ++ effects

/-- The shared state at a time when a program has had these effects. -/
def Sees (applies : Shared → Effect → Shared → Prop) (start : Shared) (log : List (Nat × Effect)) (i : Nat) (done : List Effect)
    (shared : Shared) : Prop :=
  ∃ earlier later, log = earlier ++ later ∧ Instances.own i earlier = done ∧ Run applies start (earlier.map (·.2)) shared

variable {call : Call Answer Shared Own Effect} {applies : Shared → Effect → Shared → Prop}

private theorem own_effects (i : Nat) (effects : List Effect) : Instances.own i (effects.map fun effect => (i, effect)) = effects := by
  induction effects with
  | nil => rfl
  | cons effect effects ih => rw [List.map_cons, own_same, ih]

private theorem own_others {i j : Nat} (apart : j ≠ i) (effects : List Effect) :
    Instances.own i (effects.map fun effect => (j, effect)) = [] := by
  induction effects with
  | nil => rfl
  | cons effect effects ih => rw [List.map_cons, own_other apart, ih]

/-- In any interleaving the effects can be listed in one order that explains the shared
state, and every program that has ended has run on its own, up to what it saw. -/
theorem run_alone {start : Shared} {before after : Pool Answer α Shared Own} {order : List Nat}
    (run : Run (Moves call applies) before order after) (log : List (Nat × Effect)) (reached : Run applies start (log.map (·.2)) before.shared) :
    ∃ later, Run applies start ((log ++ later).map (·.2)) after.shared ∧ (∀ entry ∈ later, entry.1 < before.threads.length) ∧
      ∀ i state program last result, before.threads[i]? = some (state, program) → after.threads[i]? = some (last, .done result) →
        Program.Runs (Alone call (Sees applies start (log ++ later) i)) (state, Instances.own i log) program
          (last, Instances.own i (log ++ later)) result := by
  induction run generalizing log with
  | done =>
    refine ⟨[], by rwa [List.append_nil], nofun, ?_⟩
    intro i state program last result first ended
    rw [first] at ended
    cases ended
    rw [List.append_nil]
    exact .done
  | @next before j middle order after moved rest ih =>
    cases moved with
    | @move state op next answer effects ended shared found called applied =>
      have reached' : Run applies start ((log ++ effects.map fun effect => (j, effect)).map (·.2)) shared := by
        have listed : (effects.map fun effect => (j, effect)).map (·.2) = effects := (List.map_map ..).trans (List.map_id' effects)
        rw [List.map_append, listed]
        exact reached.append applied
      obtain ⟨later, final, known, runs⟩ := ih _ reached'
      rw [List.append_assoc] at final runs
      refine ⟨_, final, ?_, ?_⟩
      · intro entry member
        rcases List.mem_append.mp member with mine | others
        · obtain ⟨effect, -, rfl⟩ := List.mem_map.mp mine
          exact (List.getElem?_eq_some_iff.mp found).1
        · have bound := known entry others
          rwa [List.length_set] at bound
      intro i first program last result here there
      by_cases same : j = i
      · subst same
        rw [found] at here
        cases here
        have moved : (before.threads.set j (ended, next answer))[j]? = some (ended, next answer) := by
          rw [List.getElem?_set_self (List.getElem?_eq_some_iff.mp found).1]
        have continued := runs j _ _ last result moved there
        rw [own_append, own_effects] at continued
        refine .ask ⟨before.shared, effects, ⟨log, _, rfl, rfl, reached⟩, called, rfl⟩ continued
      · have kept : (before.threads.set j (ended, next answer))[i]? = some (first, program) := by
          rw [List.getElem?_set_ne same]
          exact here
        have continued := runs i _ _ last result kept there
        rw [own_append, own_others same, List.append_nil] at continued
        exact continued

/-- A call with its effects. -/
def Taken (call : Call Answer Shared Own Effect) (applies : Shared → Effect → Shared → Prop) (before : Shared × Own) (op : Op)
    (answer : Answer op) (after : Shared × Own) : Prop :=
  ∃ effects, call before.1 before.2 op answer effects after.2 ∧ Run applies before.1 effects after.1

/-- One interleaving is that in which the first program runs to its end. -/
theorem run_first {before after : Shared × Own} {program : Program Op Answer α} {result : α}
    (runs : Program.Runs (Taken call applies) before program after result) (others : List (Own × Program Op Answer α)) :
    ∃ order, Run (Moves call applies) ⟨before.1, (before.2, program) :: others⟩ order ⟨after.1, (after.2, .done result) :: others⟩ := by
  induction runs with
  | done => exact ⟨[], .done⟩
  | ask taken _ ih =>
    obtain ⟨effects, called, applied⟩ := taken
    obtain ⟨order, rest⟩ := ih
    exact ⟨0 :: order, .next (.move rfl called applied) rest⟩

end Interleaving
