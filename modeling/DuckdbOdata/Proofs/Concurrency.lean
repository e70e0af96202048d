import DuckdbOdata.Foundation.Run
import DuckdbOdata.Server.Admission

/-! The limit of concurrent queries. A restart resets the counter, so the limit
holds as long as no restart finds a thread of an earlier server at work. -/

namespace DuckdbOdata.Concurrency
open RequestThreads

/-- A request that is over the limit does not reach the database. -/
theorem overLimit_silent {state : ServerState} (exceeded : overLimit state.maxConcurrentQueries state.activeQueries = true)
    (read : BodyReader) (catalog : Catalog) (request : HttpRequest) :
    (handleODataRequest read state catalog request).Safe (fun _ => False) fun _ => True := by
  have busy : 0 < state.maxConcurrentQueries ∧ state.maxConcurrentQueries ≤ state.activeQueries := by
    simpa [overLimit] using exceeded
  unfold handleODataRequest
  simp only [busy, and_self, ite_true]
  repeat' split
  all_goals exact trivial

/-- Between its `fetch_add` and its `fetch_sub`. -/
def inFlight : Phase → Bool
  | .counted _ | .admitted | .refused => true
  | .arrived | .finished => false

def executing : Phase → Bool
  | .admitted => true
  | _ => false

/-- Admitted, or certain to be. -/
def holding (limit : Int) : Phase → Bool
  | .counted active => active < limit
  | .admitted => true
  | _ => false

/-- What the counter and the limit promise. -/
structure Limited (limit : Int) (threads : RequestThreads) : Prop where
  nonneg : 0 ≤ threads.activeQueries
  counted : threads.activeQueries = threads.handlers.countP inFlight
  bounded : threads.handlers.countP executing ≤ limit

/-- What every step but a restart keeps. -/
structure Kept (limit : Int) (threads : RequestThreads) : Prop where
  counted : threads.activeQueries = threads.handlers.countP inFlight
  held : threads.handlers.countP (holding limit) ≤ limit
  limit : threads.running = true ∨ threads.handlers ≠ [] → threads.maxConcurrentQueries = limit

theorem Kept.limited {limit : Int} {threads : RequestThreads} (kept : Kept limit threads) : Limited limit threads := by
  have admitted : threads.handlers.countP executing ≤ threads.handlers.countP (holding limit) :=
    List.countP_mono_left fun phase _ runs => by
      cases phase <;> simp_all [executing, holding]
  have held := kept.held
  have counted := kept.counted
  exact ⟨by omega, counted, by omega⟩

private theorem countP_move {handlers : List Phase} {handler : Nat} {phase : Phase} (found : handlers[handler]? = some phase)
    (next : Phase) (counts : Phase → Bool) :
    (handlers.set handler next).countP counts + (if counts phase then 1 else 0) =
      handlers.countP counts + if counts next then 1 else 0 := by
  obtain ⟨inside, same⟩ := List.getElem?_eq_some_iff.mp found
  rw [List.countP_set inside, same]
  have present : (if counts phase then 1 else 0) ≤ handlers.countP counts := by
    split
    next counted => exact List.countP_pos_iff.mpr ⟨phase, List.mem_of_getElem? found, counted⟩
    next => exact Nat.zero_le _
  omega

private theorem Kept.enter {limit : Int} {threads : RequestThreads} (kept : Kept limit threads) {handler : Nat} {phase : Phase}
    (found : threads.handlers[handler]? = some phase) (next : Phase) {active : Int}
    (counted : active = (threads.handlers.set handler next).countP inFlight)
    (held : (threads.handlers.set handler next).countP (holding limit) ≤ limit) :
    Kept limit { threads.enter handler next with activeQueries := active } where
  counted := counted
  held := held
  limit _ := kept.limit (.inr (List.ne_nil_of_mem (List.mem_of_getElem? found)))

private theorem holding_le (limit : Int) (handlers : List Phase) :
    handlers.countP (holding limit) ≤ handlers.countP inFlight :=
  List.countP_mono_left fun phase _ holds => by
    cases phase <;> simp_all [inFlight, holding]

theorem step_kept {limit : Int} (positive : 0 < limit) {before after : RequestThreads} {event : ThreadEvent} (kept : Kept limit before)
    (stepped : step before event = some after)
    (restart : ∀ m, event = .serve m → m = limit ∧ before.handlers.countP inFlight = 0) : Kept limit after := by
  have counted := kept.counted
  have held := kept.held
  cases event with
  | accept =>
    simp only [step] at stepped
    split at stepped
    next runs =>
      cases stepped
      exact ⟨by simp [counted, inFlight], by simpa [holding] using held, fun _ => kept.limit (.inl runs)⟩
    next => cases stepped
  | answer handler =>
    simp only [step] at stepped
    split at stepped
    next found =>
      cases stepped
      have flight := countP_move found .finished inFlight
      have places := countP_move found .finished (holding limit)
      simp only [inFlight, holding, Bool.false_eq_true, ite_false] at flight places
      exact kept.enter found .finished (by omega) (by omega)
    next => cases stepped
  | fetchAdd handler =>
    simp only [step] at stepped
    split at stepped
    next found =>
      cases stepped
      have flight := countP_move found (.counted before.activeQueries) inFlight
      have places := countP_move found (.counted before.activeQueries) (holding limit)
      have below := holding_le limit before.handlers
      simp only [inFlight, holding, decide_eq_true_eq, Bool.false_eq_true, ite_true, ite_false] at flight places
      refine kept.enter found (.counted before.activeQueries) (by omega) ?_
      -- A place is taken only if the counter, and so the number of places taken, was below the limit.
      split at places <;> omega
    next => cases stepped
  | compare handler =>
    simp only [step] at stepped
    split at stepped
    next active found =>
      cases stepped
      have same := kept.limit (.inr (List.ne_nil_of_mem (List.mem_of_getElem? found)))
      rw [same]
      cases exceeded : overLimit limit active with
      | true =>
        have flight := countP_move found .refused inFlight
        have places := countP_move found .refused (holding limit)
        simp only [inFlight, holding, Bool.false_eq_true, ite_true, ite_false] at flight places
        exact kept.enter found .refused (by omega) (by omega)
      | false =>
        have flight := countP_move found .admitted inFlight
        have places := countP_move found .admitted (holding limit)
        have below : active < limit := by
          simp only [overLimit, Bool.and_eq_false_iff, decide_eq_false_iff_not] at exceeded
          omega
        simp only [inFlight, holding, below, decide_true, ite_true] at flight places
        exact kept.enter found .admitted (by omega) (by omega)
    next => cases stepped
  | fetchSub handler =>
    simp only [step] at stepped
    split at stepped
    next found =>
      cases stepped
      have flight := countP_move found .finished inFlight
      have places := countP_move found .finished (holding limit)
      simp only [inFlight, holding, Bool.false_eq_true, ite_true, ite_false] at flight places
      exact kept.enter found .finished (by omega) (by omega)
    next found =>
      cases stepped
      have flight := countP_move found .finished inFlight
      have places := countP_move found .finished (holding limit)
      simp only [inFlight, holding, Bool.false_eq_true, ite_true, ite_false] at flight places
      exact kept.enter found .finished (by omega) (by omega)
    next => cases stepped
  | stop =>
    cases stepped
    exact ⟨counted, held, fun some => kept.limit (.inr (some.resolve_left nofun))⟩
  | serve m =>
    obtain ⟨rfl, idle⟩ := restart m rfl
    simp only [step] at stepped
    split at stepped
    next => cases stepped
    next =>
      cases stepped
      exact ⟨by simp [idle], held, fun _ => rfl⟩

def Moves (before : RequestThreads) (event : ThreadEvent) (after : RequestThreads) : Prop := step before event = some after

private theorem moves_functional (before : RequestThreads) (event : ThreadEvent) (first last : RequestThreads)
    (one : Moves before event first) (other : Moves before event last) : first = last :=
  Option.some.inj (one.symm.trans other)

private theorem serve_resets {before after : RequestThreads} {limit : Int} (served : Moves before (.serve limit) after) :
    after.activeQueries = 0 ∧ after.handlers = before.handlers := by
  simp only [Moves, step] at served
  split at served
  next => cases served
  next => cases served; exact ⟨rfl, rfl⟩

/-- If every `odata_serve` sets the same limit, the counter and the limit are kept
in every state of a run exactly if no `odata_serve` finds a thread in flight. -/
theorem limited_iff {limit : Int} (positive : 0 < limit) {events : List ThreadEvent} {final : RequestThreads}
    (run : Run Moves {} events final) (same : ∀ m, .serve m ∈ events → m = limit) :
    (∀ past state, past <+: events → Run Moves {} past state → Limited limit state) ↔
      ∀ past m state, past ++ [.serve m] <+: events → Run Moves {} past state → state.handlers.countP inFlight = 0 := by
  constructor
  · rintro limited past m state ⟨rest, rfl⟩ reached
    obtain ⟨served, first, -⟩ := run.split
    obtain ⟨middle, before, step⟩ := first.split
    cases before.functional moves_functional reached
    have counted := (limited _ _ (List.prefix_append _ _) first).counted
    cases step with
    | next stepped rest =>
      cases rest
      obtain ⟨reset, threads⟩ := serve_resets stepped
      rw [reset, threads] at counted
      omega
  · rintro idle past state ⟨rest, rfl⟩ reached
    refine Kept.limited (reached.history (fun _ => Kept limit) ?_ ?_)
    · exact ⟨rfl, positive.le, fun none => absurd none (by simp)⟩
    · intro done event more before after whole sofar stepped kept
      refine step_kept positive kept stepped ?_
      rintro m rfl
      refine ⟨same m (by simp [whole]), idle done m before ⟨more ++ rest, ?_⟩ sofar⟩
      simp [whole]

/-- A restart while the first query runs: a second one is admitted although the
limit is one, and at the end the counter is negative. -/
theorem limited_restart :
    ∃ full final : RequestThreads,
      Run Moves {} [.serve 1, .accept, .fetchAdd 0, .compare 0, .stop, .serve 1, .accept, .fetchAdd 1, .compare 1] full ∧
      full.handlers.countP executing = 2 ∧ ¬ Limited 1 full ∧
      Run Moves full [.fetchSub 0, .fetchSub 1] final ∧ final.activeQueries = -1 := by
  refine ⟨⟨1, 1, true, [.admitted, .admitted]⟩, ⟨-1, 1, true, [.finished, .finished]⟩, ?_, rfl, ?_, ?_, rfl⟩
  · iterate 9 refine .next rfl ?_
    exact .done
  · intro limited
    exact absurd limited.bounded (by decide)
  · iterate 2 refine .next rfl ?_
    exact .done

/-- Two requests come to their end before the server is started again. -/
private def restarted : List ThreadEvent :=
  [.serve 2, .accept, .accept, .fetchAdd 0, .fetchAdd 1, .compare 0, .compare 1, .fetchSub 1, .fetchSub 0, .stop, .serve 2, .accept, .fetchAdd 2]

theorem limited_iff_serve : Limited 2 ⟨1, 2, true, [.finished, .finished, .counted 0]⟩ := by
  have quiet : Run (fun before event after => Moves before event after ∧ ∀ m, event = .serve m → before.handlers.countP inFlight = 0)
      {} restarted ⟨1, 2, true, [.finished, .finished, .counted 0]⟩ := by
    iterate 13 refine .next ⟨rfl, fun m served => ?_⟩ ?_; rotate_left
    exact .done
    all_goals cases served <;> rfl
  have run := quiet.mono fun _ _ _ _ => And.left
  refine (limited_iff (by decide) run (by simp [restarted])).mpr ?_ _ _ List.prefix_rfl run
  rintro past m state ⟨rest, whole⟩ reached
  exact quiet.checked moves_functional (whole.symm.trans (List.append_assoc _ _ _)) reached m rfl

end DuckdbOdata.Concurrency
