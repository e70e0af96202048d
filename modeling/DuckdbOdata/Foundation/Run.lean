import Mathlib.Algebra.GroupWithZero.Nat
import Mathlib.Data.List.Basic

/-! Finite runs of a system whose steps carry labels, and the rules that carry an
invariant along them. -/

/-- `Run step before labels after`: the steps with these labels lead from
`before` to `after`. -/
inductive Run {State Label : Type} (step : State → Label → State → Prop) : State → List Label → State → Prop
  | done {state} : Run step state [] state
  | next {before label middle labels after} :
      step before label middle → Run step middle labels after → Run step before (label :: labels) after

namespace Run

variable {State Label : Type} {step : State → Label → State → Prop} {start before middle after : State}

theorem append {first last : List Label} (initial : Run step before first middle) (final : Run step middle last after) :
    Run step before (first ++ last) after := by
  induction initial with
  | done => exact final
  | next stepped _ ih => exact .next stepped (ih final)

theorem split {first last : List Label} (run : Run step before (first ++ last) after) :
    ∃ middle, Run step before first middle ∧ Run step middle last after := by
  induction first generalizing before with
  | nil => exact ⟨before, .done, run⟩
  | cons label first ih =>
    cases run with
    | next stepped rest =>
      obtain ⟨middle, initial, final⟩ := ih rest
      exact ⟨middle, .next stepped initial, final⟩

theorem single {label : Label} (stepped : step before label after) : Run step before [label] after := .next stepped .done

theorem functional (unique : ∀ before label first last, step before label first → step before label last → first = last)
    {labels : List Label} (one : Run step before labels middle) (other : Run step before labels after) : middle = after := by
  induction one with
  | done => cases other; rfl
  | next stepped _ ih =>
    cases other with
    | next again rest =>
      cases unique _ _ _ _ stepped again
      exact ih rest

/-- What is checked at every step of a run holds at each of its labels. -/
theorem checked (unique : ∀ before label first last, step before label first → step before label last → first = last)
    {holds : State → Label → Prop} {labels past rest : List Label} {label : Label} {state : State}
    (run : Run (fun before label after => step before label after ∧ holds before label) start labels after)
    (whole : labels = past ++ label :: rest) (reached : Run step start past state) : holds state label := by
  induction past generalizing start labels with
  | nil =>
    cases reached
    cases whole
    cases run with
    | next stepped _ => exact stepped.2
  | cons first past ih =>
    cases whole
    cases run with
    | next stepped rest =>
      cases reached with
      | next again later =>
        cases unique _ _ _ _ stepped.1 again
        exact ih rest rfl later

/-- An invariant of the state together with the labels so far, if every step
keeps it: `kept` may use that the step belongs to the run. -/
theorem history {labels : List Label} (run : Run step start labels after) (holds : List Label → State → Prop)
    (initial : holds [] start)
    (kept : ∀ past label rest before after, labels = past ++ label :: rest → Run step start past before →
      step before label after → holds past before → holds (past ++ [label]) after) : holds labels after := by
  have general : ∀ past current labels' final, Run step current labels' final → labels = past ++ labels' →
      Run step start past current → holds past current → holds labels final := by
    intro past current labels' final run
    induction run generalizing past with
    | done =>
      intro whole _ now
      rw [whole, List.append_nil]
      exact now
    | next stepped _ ih =>
      intro whole sofar now
      exact ih (past ++ [_]) (by rw [whole]; simp) (sofar.append (single stepped)) (kept past _ _ _ _ whole sofar stepped now)
  exact general [] start labels after run rfl .done initial

/-- An invariant of the state alone. -/
theorem invariant {labels : List Label} (run : Run step before labels after) (holds : State → Prop) (initial : holds before)
    (kept : ∀ label ∈ labels, ∀ before after, step before label after → holds before → holds after) : holds after := by
  induction run with
  | done => exact initial
  | next stepped _ ih =>
    exact ih (kept _ (by simp) _ _ stepped initial) fun label member => kept label (List.mem_cons_of_mem _ member)

/-- An invariant of the state under which every step has a good label. -/
theorem labels {labels : List Label} (run : Run step before labels after) (holds : State → Prop) (good : Label → Prop) (initial : holds before)
    (kept : ∀ label ∈ labels, ∀ before after, step before label after → holds before → good label ∧ holds after) :
    (∀ label ∈ labels, good label) ∧ holds after := by
  induction run with
  | done => exact ⟨nofun, initial⟩
  | next stepped _ ih =>
    obtain ⟨first, now⟩ := kept _ List.mem_cons_self _ _ stepped initial
    obtain ⟨rest, final⟩ := ih now fun label member => kept label (List.mem_cons_of_mem _ member)
    exact ⟨List.forall_mem_cons.mpr ⟨first, rest⟩, final⟩

theorem mono {other : State → Label → State → Prop} {labels : List Label} (run : Run step before labels after)
    (weaker : ∀ label ∈ labels, ∀ before after, step before label after → other before label after) : Run other before labels after := by
  induction run with
  | done => exact .done
  | next stepped _ ih =>
    exact .next (weaker _ List.mem_cons_self _ _ stepped) (ih fun label member => weaker label (List.mem_cons_of_mem _ member))

/-- If every step pays its cost from a rank, which only its gain can raise, then
the costs of a run are bounded by the gains. -/
theorem bounded {labels : List Label} (run : Run step before labels after) (rank : State → Nat) (cost gain : Label → Nat)
    (pays : ∀ label ∈ labels, ∀ before after, step before label after → rank after + cost label ≤ rank before + gain label) :
    rank after + (labels.map cost).sum ≤ rank before + (labels.map gain).sum := by
  induction run with
  | done => exact Nat.le_refl _
  | next stepped _ ih =>
    have first := pays _ (by simp) _ _ stepped
    have later := ih fun label member => pays label (List.mem_cons_of_mem _ member)
    simp only [List.map_cons, List.sum_cons]
    omega

end Run
