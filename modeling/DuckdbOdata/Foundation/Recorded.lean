import Mathlib.Data.List.Basic

/-! Computations that may fail and record what they do on the way. The events
before a failure are kept. -/

structure Recorded (Event Failure α : Type) where
  events : List Event
  result : Except Failure α

namespace Recorded

variable {Event Failure α β γ : Type}

def note (event : Event) : Recorded Event Failure Unit := ⟨[event], .ok ()⟩

def lift (result : Except Failure α) : Recorded Event Failure α := ⟨[], result⟩

instance : Monad (Recorded Event Failure) where
  pure value := ⟨[], .ok value⟩
  bind first next :=
    match first.result with
    | .ok value => ⟨first.events ++ (next value).events, (next value).result⟩
    | .error failure => ⟨first.events, .error failure⟩

@[simp] theorem pure_events (value : α) : (pure value : Recorded Event Failure α).events = [] := rfl

@[simp] theorem pure_result (value : α) : (pure value : Recorded Event Failure α).result = .ok value := rfl

@[simp] theorem lift_events (result : Except Failure α) : (lift result : Recorded Event Failure α).events = [] := rfl

@[simp] theorem lift_result (result : Except Failure α) : (lift result : Recorded Event Failure α).result = result := rfl

@[simp] theorem note_bind_events (event : Event) (next : Unit → Recorded Event Failure α) :
    (note event >>= next).events = event :: (next ()).events := rfl

@[simp] theorem note_bind_result (event : Event) (next : Unit → Recorded Event Failure α) :
    (note event >>= next).result = (next ()).result := rfl

/-- The record is no part of the result. -/
theorem bind_result (first : Recorded Event Failure α) (next : α → Recorded Event Failure β) :
    (first >>= next).result = first.result >>= fun value => (next value).result := by
  obtain ⟨events, result⟩ := first
  cases result with
  | ok value => rfl
  | error failure => rfl

theorem ok_bind_events {first : Recorded Event Failure α} {value : α} (done : first.result = .ok value)
    (next : α → Recorded Event Failure β) : (first >>= next).events = first.events ++ (next value).events := by
  obtain ⟨events, result⟩ := first
  cases done
  rfl

theorem error_bind_events {first : Recorded Event Failure α} {failure : Failure} (failed : first.result = .error failure)
    (next : α → Recorded Event Failure β) : (first >>= next).events = first.events := by
  obtain ⟨events, result⟩ := first
  cases failed
  rfl

@[simp] theorem map_events (first : Recorded Event Failure α) (next : α → β) :
    (first >>= fun value => pure (next value)).events = first.events := by
  obtain ⟨events, result⟩ := first
  cases result with
  | ok value => exact List.append_nil events
  | error failure => rfl

/-- What is recorded after a computation that may have failed. -/
def after (result : Except Failure α) (events : List Event) : List Event :=
  match result with
  | .ok _ => events
  | .error _ => []

/-- A second computation that does not depend on the first value. -/
theorem both_events (first : Recorded Event Failure α) (last : Recorded Event Failure β) (next : α → β → γ) :
    (first >>= fun one => last >>= fun other => pure (next one other)).events = first.events ++ after first.result last.events := by
  cases done : first.result with
  | ok value => rw [ok_bind_events done, map_events, after]
  | error failure => rw [error_bind_events done, after, List.append_nil]

/-- Every event is as `each` says, a value satisfies `post` and a failure `fails`. -/
structure Ensures (each : Event → Prop) (fails : Failure → Prop) (post : α → Prop) (run : Recorded Event Failure α) : Prop where
  events : ∀ event ∈ run.events, each event
  ok : ∀ value, run.result = .ok value → post value
  error : ∀ failure, run.result = .error failure → fails failure

variable {each : Event → Prop} {fails : Failure → Prop}

theorem Ensures.pure {post : α → Prop} {value : α} (holds : post value) :
    Ensures each fails post (pure value : Recorded Event Failure α) where
  events := nofun
  ok := by
    rintro _ ⟨rfl⟩
    exact holds
  error := nofun

theorem Ensures.fail {post : α → Prop} {failure : Failure} (holds : fails failure) :
    Ensures each fails post (lift (.error failure) : Recorded Event Failure α) where
  events := nofun
  ok := nofun
  error := by
    rintro _ ⟨rfl⟩
    exact holds

theorem Ensures.note {event : Event} (holds : each event) :
    Ensures each fails (fun _ => True) (note event : Recorded Event Failure Unit) where
  events := fun _ member => List.mem_singleton.mp member ▸ holds
  ok := fun _ _ => trivial
  error := nofun

theorem Ensures.weaken {post wider : α → Prop} {run : Recorded Event Failure α} (ensures : Ensures each fails post run)
    (wide : ∀ value, post value → wider value) : Ensures each fails wider run :=
  ⟨ensures.events, fun value done => wide value (ensures.ok value done), ensures.error⟩

/-- A second computation that relies on what the first one ensures. -/
theorem Ensures.bind {middle : α → Prop} {post : β → Prop} {first : Recorded Event Failure α} {next : α → Recorded Event Failure β}
    (one : Ensures each fails middle first) (other : ∀ value, middle value → Ensures each fails post (next value)) :
    Ensures each fails post (first >>= next) := by
  cases done : first.result with
  | error failure =>
    have result : (first >>= next).result = .error failure := by
      rw [bind_result, done]
      rfl
    refine ⟨?_, ?_, ?_⟩
    · rw [error_bind_events done]
      exact one.events
    · rw [result]
      exact nofun
    · rw [result]
      rintro _ ⟨rfl⟩
      exact one.error failure done
  | ok value =>
    have later := other value (one.ok value done)
    have result : (first >>= next).result = (next value).result := by
      rw [bind_result, done]
      rfl
    refine ⟨?_, ?_, ?_⟩
    · rw [ok_bind_events done]
      intro event member
      exact (List.mem_append.mp member).elim (one.events event) (later.events event)
    · rw [result]
      exact later.ok
    · rw [result]
      exact later.error

/-- The run and the unrecorded computation succeed with related values or fail alike. -/
inductive Follows (related : α → β → Prop) : Recorded Event Failure α → Except Failure β → Prop
  | ok {events value other} : related value other → Follows related ⟨events, .ok value⟩ (.ok other)
  | error {events failure} : Follows related ⟨events, .error failure⟩ (.error failure)

theorem Follows.pure {related : α → β → Prop} {value : α} {other : β} (same : related value other) :
    Follows related (pure value : Recorded Event Failure α) (.ok other) := .ok same

theorem Follows.recorded {related : α → β → Prop} {run : Recorded Event Failure α} {plain : Except Failure β}
    (follows : Follows related run plain) (events : List Event) : Follows related ⟨events, run.result⟩ plain := by
  cases follows with
  | ok same => exact .ok same
  | error => exact .error

theorem Follows.bind {δ : Type} {middle : α → β → Prop} {related : γ → δ → Prop} {first : Recorded Event Failure α}
    {plain : Except Failure β} {next : α → Recorded Event Failure γ} {continued : β → Except Failure δ}
    (one : Follows middle first plain) (other : ∀ value read, middle value read → Follows related (next value) (continued read)) :
    Follows related (first >>= next) (plain >>= continued) := by
  cases one with
  | ok same => exact (other _ _ same).recorded _
  | error => exact .error

/-- Steps of which the unrecorded computation has no trace. -/
theorem Follows.skip {related : γ → β → Prop} {first : Recorded Event Failure α} {value : α} {plain : Except Failure β}
    {next : α → Recorded Event Failure γ} (done : first.result = .ok value) (other : Follows related (next value) plain) :
    Follows related (first >>= next) plain := by
  obtain ⟨events, result⟩ := first
  cases done
  exact other.recorded _

theorem Follows.fail {related : γ → β → Prop} {first : Recorded Event Failure α} {failure : Failure}
    {next : α → Recorded Event Failure γ} (failed : first.result = .error failure) :
    Follows related (first >>= next) (.error failure) := by
  obtain ⟨events, result⟩ := first
  cases failed
  exact .error

theorem Follows.result_eq {run : Recorded Event Failure α} {plain : Except Failure α}
    (follows : Follows (fun value other => other = value) run plain) : run.result = plain := by
  cases follows with
  | ok same => rw [same]
  | error => rfl

/-- Unless `less` gave up, `more` is the same run. -/
def Extends (gaveUp : Failure) (less more : Recorded Event Failure α) : Prop := less.result = .error gaveUp ∨ more = less

variable {gaveUp : Failure}

theorem Extends.refl (run : Recorded Event Failure α) : Extends gaveUp run run := .inr rfl

theorem Extends.bind {less more : Recorded Event Failure α} {next longer : α → Recorded Event Failure β}
    (one : Extends gaveUp less more) (other : ∀ value, Extends gaveUp (next value) (longer value)) :
    Extends gaveUp (less >>= next) (more >>= longer) := by
  rcases one with gave | rfl
  · exact .inl (by rw [bind_result, gave]; rfl)
  · obtain ⟨events, result⟩ := more
    cases result with
    | error failure => exact .inr rfl
    | ok value =>
      rcases other value with gave | same
      · exact .inl gave
      · refine .inr ?_
        change (⟨events ++ (longer value).events, (longer value).result⟩ : Recorded Event Failure β) = _
        rw [same]
        rfl

end Recorded
