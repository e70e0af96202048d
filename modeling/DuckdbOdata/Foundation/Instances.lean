import Mathlib.Logic.Function.Basic

/-! Many instances of one machine, each with its own state under its key. A call may
create the state of its instance; it never reaches another one. -/

namespace Instances

variable {Key State Call Answer : Type} [DecidableEq Key]

/-- What a call makes of the state of its instance, if there is one, and its answer. -/
abbrev Machine (State Call Answer : Type) := Option State → Call → Option State × Answer

/-- The calls of one instance. -/
def single (machine : Machine State Call Answer) : Option State → List Call → Option State × List Answer
  | state, [] => (state, [])
  | state, call :: calls =>
    let rest := single machine (machine state call).1 calls
    (rest.1, (machine state call).2 :: rest.2)

/-- The calls of all instances, in the order in which they come. -/
def run (machine : Machine State Call Answer) : (Key → Option State) → List (Key × Call) → (Key → Option State) × List (Key × Answer)
  | states, [] => (states, [])
  | states, (key, call) :: calls =>
    let rest := run machine (Function.update states key (machine (states key) call).1) calls
    (rest.1, (key, (machine (states key) call).2) :: rest.2)

/-- What concerns one instance. -/
def own (key : Key) (labels : List (Key × α)) : List α := (labels.filter (·.1 = key)).map (·.2)

@[simp] theorem own_nil (key : Key) : own key ([] : List (Key × α)) = [] := rfl

theorem own_same (key : Key) (label : α) (labels : List (Key × α)) : own key ((key, label) :: labels) = label :: own key labels := by
  simp [own]

theorem own_other {key other : Key} (apart : other ≠ key) (label : α) (labels : List (Key × α)) :
    own key ((other, label) :: labels) = own key labels := by
  simp [own, apart]

theorem own_append (key : Key) (first last : List (Key × α)) : own key (first ++ last) = own key first ++ own key last := by
  rw [own, List.filter_append, List.map_append]
  rfl

theorem single_append (machine : Machine State Call Answer) (state : Option State) (first last : List Call) :
    single machine state (first ++ last) =
      ((single machine (single machine state first).1 last).1,
        (single machine state first).2 ++ (single machine (single machine state first).1 last).2) := by
  induction first generalizing state with
  | nil => rfl
  | cons call first ih =>
    rw [List.cons_append, single, ih]
    rfl

/-- An instance fares as if the calls of the others were not there. -/
theorem run_own (machine : Machine State Call Answer) (states : Key → Option State) (calls : List (Key × Call)) (key : Key) :
    (run machine states calls).1 key = (single machine (states key) (own key calls)).1 ∧
      own key (run machine states calls).2 = (single machine (states key) (own key calls)).2 := by
  induction calls generalizing states with
  | nil => exact ⟨rfl, rfl⟩
  | cons label calls ih =>
    obtain ⟨other, call⟩ := label
    have later := ih (Function.update states other (machine (states other) call).1)
    by_cases same : other = key
    · subst same
      rw [Function.update_self] at later
      rw [run, own_same, own_same, single]
      exact ⟨later.1, congrArg (_ :: ·) later.2⟩
    · rw [Function.update_of_ne (Ne.symm same)] at later
      rw [run, own_other same, own_other same]
      exact later

/-- What has been answered stays answered. -/
theorem run_append (machine : Machine State Call Answer) (states : Key → Option State) (first last : List (Key × Call)) :
    run machine states (first ++ last) =
      ((run machine (run machine states first).1 last).1,
        (run machine states first).2 ++ (run machine (run machine states first).1 last).2) := by
  induction first generalizing states with
  | nil => rfl
  | cons label first ih =>
    rw [List.cons_append, run, ih]
    rfl

/-- An answer is that of one call after the calls before it. -/
theorem single_split {machine : Machine State Call Answer} {state : Option State} {calls : List Call} {before after : List Answer} {answer : Answer}
    (answers : (single machine state calls).2 = before ++ answer :: after) :
    ∃ first call last, calls = first ++ call :: last ∧ before = (single machine state first).2 ∧
      answer = (machine (single machine state first).1 call).2 := by
  induction before generalizing state calls with
  | nil =>
    cases calls with
    | nil => cases answers
    | cons call calls => exact ⟨[], call, calls, rfl, rfl, (List.cons.inj answers).1.symm⟩
  | cons other before ih =>
    cases calls with
    | nil => cases answers
    | cons call calls =>
      obtain ⟨same, answers⟩ := List.cons.inj answers
      obtain ⟨first, own, last, rfl, rfl, found⟩ := ih answers
      exact ⟨call :: first, own, last, rfl, same ▸ rfl, found⟩

/-- An instance stays as the observer knows it from its answers. -/
theorem single_observed {machine : Machine State Call Answer} {observe : Seen → Answer → Seen} {known : Seen → Option State → Prop}
    (kept : ∀ seen state call, known seen state → known (observe seen (machine state call).2) (machine state call).1)
    (calls : List Call) {seen : Seen} {state : Option State} (initial : known seen state) :
    known ((single machine state calls).2.foldl observe seen) (single machine state calls).1 := by
  induction calls generalizing seen state with
  | nil => exact initial
  | cons call calls ih => exact ih (kept seen state call initial)

end Instances
