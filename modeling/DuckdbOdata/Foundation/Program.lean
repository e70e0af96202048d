import Mathlib.Init

/-! Programs that ask an environment for answers. The environment is not fixed:
a run may take every answer from one function, or from a relation on states. -/

/-- A computation that asks `op` and continues with the answer. -/
inductive Program (Op : Type) (Answer : Op → Type) (α : Type) where
  | done (result : α)
  | ask (op : Op) (next : Answer op → Program Op Answer α)

namespace Program

variable {Op : Type} {Answer : Op → Type} {α β : Type}

def bind : Program Op Answer α → (α → Program Op Answer β) → Program Op Answer β
  | .done result, next => next result
  | .ask op rest, next => .ask op fun answer => (rest answer).bind next

instance : Monad (Program Op Answer) where
  pure := .done
  bind := bind

def perform (op : Op) : Program Op Answer (Answer op) := .ask op .done

/-- The result when `answers` answers every question. -/
def run (answers : ∀ op, Answer op) : Program Op Answer α → α
  | .done result => result
  | .ask op next => (next (answers op)).run answers

@[simp] theorem run_done (answers : ∀ op, Answer op) (result : α) :
    (done result : Program Op Answer α).run answers = result := rfl

@[simp] theorem run_pure (answers : ∀ op, Answer op) (result : α) :
    (pure result : Program Op Answer α).run answers = result := rfl

@[simp] theorem run_ask (answers : ∀ op, Answer op) (op : Op) (next : Answer op → Program Op Answer α) :
    (ask op next).run answers = (next (answers op)).run answers := rfl

theorem run_bind (answers : ∀ op, Answer op) (first : Program Op Answer α) (next : α → Program Op Answer β) :
    (first.bind next).run answers = (next (first.run answers)).run answers := by
  induction first with
  | done result => rfl
  | ask op rest ih => exact ih (answers op)

@[simp] theorem run_monad_bind (answers : ∀ op, Answer op) (first : Program Op Answer α) (next : α → Program Op Answer β) :
    (first >>= next).run answers = (next (first.run answers)).run answers := run_bind answers first next

@[simp] theorem run_perform (answers : ∀ op, Answer op) (op : Op) :
    (perform op : Program Op Answer (Answer op)).run answers = answers op := rfl

/-- Whatever the answers are, every question is allowed and every result is good. -/
def Safe (allowed : Op → Prop) (good : α → Prop) : Program Op Answer α → Prop
  | .done result => good result
  | .ask op next => allowed op ∧ ∀ answer, (next answer).Safe allowed good

theorem Safe.bind {allowed : Op → Prop} {middle : α → Prop} {good : β → Prop} {first : Program Op Answer α}
    {next : α → Program Op Answer β} (safe : first.Safe allowed middle)
    (continued : ∀ result, middle result → (next result).Safe allowed good) : (first >>= next).Safe allowed good := by
  induction first with
  | done result => exact continued result safe
  | ask op rest ih => exact ⟨safe.1, fun answer => ih answer (safe.2 answer)⟩

theorem Safe.run {allowed : Op → Prop} {good : α → Prop} {program : Program Op Answer α}
    (safe : program.Safe allowed good) (answers : ∀ op, Answer op) : good (program.run answers) := by
  induction program with
  | done result => exact safe
  | ask op next ih => exact ih (answers op) (safe.2 (answers op))

/-- A run in which `step` relates the state before and after every answer. -/
inductive Runs {State : Type} (step : State → (op : Op) → Answer op → State → Prop) :
    State → Program Op Answer α → State → α → Prop
  | done {state result} : Runs step state (.done result) state result
  | ask {before op answer middle next after result} : step before op answer middle →
      Runs step middle (next answer) after result → Runs step before (.ask op next) after result

theorem Runs.bind {State : Type} {step : State → (op : Op) → Answer op → State → Prop} {before after : State}
    {first : Program Op Answer α} {next : α → Program Op Answer β} {result : β}
    (runs : Runs step before (first >>= next) after result) :
    ∃ middle value, Runs step before first middle value ∧ Runs step middle (next value) after result := by
  induction first generalizing before with
  | done value => exact ⟨before, value, .done, runs⟩
  | ask op rest ih =>
    cases runs with
    | ask stepped continued =>
      obtain ⟨middle, value, start, finish⟩ := ih _ continued
      exact ⟨middle, value, .ask stepped start, finish⟩

theorem Runs.pure {State : Type} {step : State → (op : Op) → Answer op → State → Prop} {before after : State}
    {value result : α} (runs : Runs step before (pure value : Program Op Answer α) after result) :
    after = before ∧ result = value := by
  cases runs
  exact ⟨rfl, rfl⟩

/-- One question and what follows it. -/
theorem Runs.perform {State : Type} {step : State → (op : Op) → Answer op → State → Prop} {before after : State} {op : Op}
    {next : Answer op → Program Op Answer α} {result : α}
    (runs : Runs step before (Program.perform op >>= next) after result) :
    ∃ answer middle, step before op answer middle ∧ Runs step middle (next answer) after result := by
  cases runs with
  | ask stepped continued => exact ⟨_, _, stepped, continued⟩

/-- What every allowed question keeps holds after the run of a safe program. -/
theorem Safe.runs {State : Type} {step : State → (op : Op) → Answer op → State → Prop} {allowed : Op → Prop} {good : α → Prop}
    (holds : State → Prop) {program : Program Op Answer α} (safe : program.Safe allowed good)
    (kept : ∀ before op answer after, allowed op → step before op answer after → holds before → holds after)
    {before after : State} {result : α} (runs : Runs step before program after result) (initial : holds before) :
    holds after ∧ good result := by
  induction runs with
  | done => exact ⟨initial, safe⟩
  | ask stepped _ ih => exact ih (safe.2 _) (kept _ _ _ _ safe.1 stepped initial)

/-- A run with its questions and their answers, whatever they are. -/
inductive Traced : Program Op Answer α → List (Σ op, Answer op) → α → Prop
  | done {result} : Traced (.done result) [] result
  | ask {op answer next events result} : Traced (next answer) events result → Traced (.ask op next) (⟨op, answer⟩ :: events) result

theorem Traced.pure {value result : α} {events : List (Σ op, Answer op)}
    (traced : (pure value : Program Op Answer α).Traced events result) : events = [] ∧ result = value := by
  cases traced
  exact ⟨rfl, rfl⟩

theorem Traced.bind {first : Program Op Answer α} {next : α → Program Op Answer β} {events : List (Σ op, Answer op)} {result : β}
    (traced : (first >>= next).Traced events result) :
    ∃ early late value, events = early ++ late ∧ first.Traced early value ∧ (next value).Traced late result := by
  induction first generalizing events with
  | done value => exact ⟨[], events, value, rfl, .done, traced⟩
  | ask op rest ih =>
    cases traced with
    | ask continued =>
      obtain ⟨early, late, value, rfl, start, finish⟩ := ih _ continued
      exact ⟨_ :: early, late, value, rfl, .ask start, finish⟩

theorem Traced.andThen {first : Program Op Answer α} {next : α → Program Op Answer β} {early late : List (Σ op, Answer op)}
    {value : α} {result : β} (start : first.Traced early value) (finish : (next value).Traced late result) :
    (first >>= next).Traced (early ++ late) result := by
  induction start with
  | done => exact finish
  | ask _ ih => exact .ask (ih finish)

theorem Traced.asks {op : Op} {answer : Answer op} {next : Answer op → Program Op Answer α} {events : List (Σ op, Answer op)} {result : α}
    (continued : (next answer).Traced events result) : (Program.perform op >>= next).Traced (⟨op, answer⟩ :: events) result :=
  .ask continued

theorem Traced.perform {op : Op} {next : Answer op → Program Op Answer α} {events : List (Σ op, Answer op)} {result : α}
    (traced : (Program.perform op >>= next).Traced events result) :
    ∃ answer later, events = ⟨op, answer⟩ :: later ∧ (next answer).Traced later result := by
  cases traced with
  | ask continued => exact ⟨_, _, rfl, continued⟩

/-- A safe program asks only what is allowed, and its result is good. -/
theorem Safe.traced {allowed : Op → Prop} {good : α → Prop} {program : Program Op Answer α} (safe : program.Safe allowed good)
    {events : List (Σ op, Answer op)} {result : α} (traced : program.Traced events result) :
    (∀ event ∈ events, allowed event.1) ∧ good result := by
  induction traced with
  | done => exact ⟨nofun, safe⟩
  | ask _ ih =>
    obtain ⟨others, holds⟩ := ih (safe.2 _)
    refine ⟨?_, holds⟩
    intro event member
    rcases List.mem_cons.mp member with rfl | later
    · exact safe.1
    · exact others event later

end Program
