import DuckdbOdata.Proofs.Segmentation
import DuckdbOdata.Proofs.ServedResponses
import DuckdbOdata.Server.ConnectionThread

/-! What the thread of a connection does, whatever the socket answers: it reads a
bounded number of bytes, calls the handler at most once, sends one response, and
closes the socket last. -/

namespace DuckdbOdata.ConnectionThreads
open Text HttpMessage ResponseWires ServedResponses ConnectionThread

/-- A call with its answer. -/
abbrev Event := (call : ConnectionCall) × call.Answer

def bytesRead : Event → Str
  | ⟨.read _, some chunk⟩ => chunk.bytes
  | _ => []

def bytesSent : Event → Str
  | ⟨.send bytes, some accepted⟩ => bytes.take accepted.count
  | _ => []

def bytesDropped : Event → Str
  | ⟨.recv _, some chunk⟩ => chunk.bytes
  | _ => []

/-- The events are calls of `read`, and these are the segments that arrived. -/
structure Reads (events : List Event) (segments : List Segment) : Prop where
  reads : ∀ event ∈ events, ∃ size, event.1 = .read size
  bytes : events.flatMap bytesRead = streamOf segments

private theorem Reads.nil : Reads [] [] := ⟨nofun, rfl⟩

private theorem Reads.failed (size : Nat) : Reads [⟨.read size, none⟩] [] where
  reads := by
    intro event member
    cases List.mem_singleton.mp member
    exact ⟨size, rfl⟩
  bytes := rfl

/-- A buffer has at most 4096 bytes. -/
private def segmentOf {size : Nat} (chunk : Arrived size) (fits : size ≤ 4096) : Segment :=
  ⟨chunk.bytes, chunk.some, chunk.small.trans fits⟩

private theorem Reads.cons {size : Nat} (chunk : Arrived size) (fits : size ≤ 4096) {events : List Event} {segments : List Segment}
    (reads : Reads events segments) : Reads (⟨.read size, some chunk⟩ :: events) (segmentOf chunk fits :: segments) where
  reads := by
    intro event member
    rcases List.mem_cons.mp member with rfl | later
    · exact ⟨size, rfl⟩
    · exact reads.reads event later
  bytes := by
    rw [List.flatMap_cons, reads.bytes]
    rfl

private theorem Reads.append {first last : List Event} {early late : List Segment} (one : Reads first early)
    (other : Reads last late) : Reads (first ++ last) (early ++ late) where
  reads := by
    intro event member
    exact (List.mem_append.mp member).elim (one.reads event) (other.reads event)
  bytes := by
    rw [List.flatMap_append, one.bytes, other.bytes, Segmentation.streamOf_append]

private theorem head_reads {fuel : Nat} {buffer : Str} {events : List Event} {result : Option (Str × Str)}
    (traced : (ConnectionThread.readRequestHead fuel buffer).Traced events result) (small : buffer.length ≤ 65536)
    (enough : 65537 ≤ fuel + buffer.length) :
    ∃ segments, Reads events segments ∧ buffer.length + (streamOf segments).length ≤ 65536 + 4096 ∧
      (result = none → DuckdbOdata.readRequestHead buffer segments = none) ∧
      ∀ head body, result = some (head, body) → ∀ more, DuckdbOdata.readRequestHead buffer (segments ++ more) = some (head, body, more) := by
  induction fuel generalizing buffer events with
  | zero => omega
  | succ fuel ih =>
    obtain ⟨answer, later, rfl, continued⟩ := Program.Traced.perform traced
    cases answer with
    | none =>
      obtain ⟨rfl, rfl⟩ := continued.pure
      exact ⟨[], .failed 4096, by simp; omega, fun _ => rfl, nofun⟩
    | some chunk =>
      have arrived := chunk.small
      have some := List.length_pos_iff.mpr chunk.some
      dsimp only at continued
      cases cut : cutText blankLine (buffer ++ chunk.bytes) with
      | some parts =>
        obtain ⟨lines, body⟩ := parts
        rw [cut] at continued
        obtain ⟨rfl, rfl⟩ := continued.pure
        refine ⟨[segmentOf chunk le_rfl], .cons chunk le_rfl .nil, by simp [segmentOf]; omega, ?_, ?_⟩
        · intro none
          rw [DuckdbOdata.readRequestHead]
          dsimp only [segmentOf]
          rw [cut]
          dsimp only
          split
          next => rfl
          next fits => rw [if_neg fits] at none; cases none
        · intro head rest found more
          split at found
          next => cases found
          next fits =>
            cases found
            rw [List.singleton_append, DuckdbOdata.readRequestHead]
            dsimp only [segmentOf]
            rw [cut]
            exact if_neg fits
      | none =>
        rw [cut] at continued
        dsimp only at continued
        split at continued
        next large =>
          obtain ⟨rfl, rfl⟩ := continued.pure
          refine ⟨[segmentOf chunk le_rfl], .cons chunk le_rfl .nil, by simp [segmentOf]; omega, fun _ => ?_, nofun⟩
          rw [DuckdbOdata.readRequestHead]
          dsimp only [segmentOf]
          rw [cut]
          exact if_pos large
        next fits =>
          simp only [List.length_append] at fits
          obtain ⟨segments, reads, bound, unfound, found⟩ := ih continued (by simp; omega) (by simp; omega)
          have step : ∀ more, DuckdbOdata.readRequestHead buffer (segmentOf chunk le_rfl :: more) =
              DuckdbOdata.readRequestHead (buffer ++ chunk.bytes) more := by
            intro more
            rw [DuckdbOdata.readRequestHead]
            dsimp only [segmentOf]
            rw [cut]
            exact if_neg (by simp; omega)
          refine ⟨segmentOf chunk le_rfl :: segments, .cons chunk le_rfl reads, ?_, ?_, ?_⟩
          · simp only [List.length_append] at bound
            simp [segmentOf]
            omega
          · intro gave
            rw [step]
            exact unfound gave
          · intro head body same more
            rw [List.cons_append, step]
            exact found head body same more

private theorem body_reads {length fuel : Nat} {body : Str} {events : List Event} {result : Option Str}
    (traced : (ConnectionThread.readBody length fuel body).Traced events result) (enough : length ≤ fuel + body.length) :
    ∃ segments, Reads events segments ∧ (streamOf segments).length ≤ length - body.length ∧
      DuckdbOdata.readBody length body segments = result := by
  induction fuel generalizing body events with
  | zero =>
    obtain ⟨rfl, rfl⟩ := traced.pure
    exact ⟨[], .nil, Nat.zero_le _, rfl⟩
  | succ fuel ih =>
    rw [ConnectionThread.readBody] at traced
    split at traced
    next full =>
      obtain ⟨rfl, rfl⟩ := traced.pure
      exact ⟨[], .nil, Nat.zero_le _, if_pos full⟩
    next missing =>
      obtain ⟨answer, later, rfl, continued⟩ := Program.Traced.perform traced
      cases answer with
      | none =>
        obtain ⟨rfl, rfl⟩ := continued.pure
        exact ⟨[], .failed _, Nat.zero_le _, if_neg missing⟩
      | some chunk =>
        have arrived := chunk.small
        have some := List.length_pos_iff.mpr chunk.some
        obtain ⟨segments, reads, bound, same⟩ := ih continued (by simp; omega)
        refine ⟨segmentOf chunk (Nat.min_le_left _ _) :: segments, .cons chunk _ reads, ?_, ?_⟩
        · simp only [List.length_append] at bound
          simp [segmentOf]
          omega
        · have whole : chunk.bytes.take (length - body.length) = chunk.bytes := List.take_of_length_le (by omega)
          rw [DuckdbOdata.readBody, if_neg missing]
          dsimp only [segmentOf]
          rw [whole]
          exact same

/-- What the reading half of a connection comes to: a rejection, or one call of
the handler with the request that the segments hold. -/
inductive Comes (segments : List Segment) (reads : List Event) : List Event → HttpResponse → Prop
  | rejected {response} : receive segments = .rejected response → Comes segments reads reads response
  | handled {request result} : receive segments = .handled request →
      Comes segments reads (reads ++ [⟨.handle request, result⟩]) (answered result)

private theorem receiveRequest_comes {events : List Event} {response : HttpResponse}
    (traced : receiveRequest.Traced events response) :
    ∃ segments reads, Reads reads segments ∧ (streamOf segments).length ≤ 65536 + 4096 + 1048576 ∧
      Comes segments reads events response := by
  obtain ⟨early, late, result, rfl, heads, continued⟩ := Program.Traced.bind traced
  obtain ⟨segments, reads, bound, unfound, found⟩ := head_reads heads (Nat.zero_le _) (by decide)
  simp only [List.length_nil, Nat.zero_add] at bound
  cases result with
  | none =>
    obtain ⟨rfl, rfl⟩ := continued.pure
    refine ⟨segments, early, reads, by omega, ?_⟩
    rw [List.append_nil]
    apply Comes.rejected
    unfold receive
    rw [unfound rfl]
  | some parts =>
    obtain ⟨head, body⟩ := parts
    have head := found head body rfl
    have last := head []
    rw [List.append_nil] at last
    dsimp only at continued
    split at continued
    next malformed =>
      obtain ⟨rfl, rfl⟩ := continued.pure
      refine ⟨segments, early, reads, by omega, ?_⟩
      rw [List.append_nil]
      apply Comes.rejected
      unfold receive
      rw [last]
      dsimp only
      rw [malformed]
    next request parsed =>
      have whole : ∀ more, receive (segments ++ more) = DuckdbOdata.receiveBody request body more := by
        intro more
        unfold receive
        rw [head more]
        dsimp only
        rw [parsed]
      have ends : receive segments = DuckdbOdata.receiveBody request body [] := by
        rw [← whole, List.append_nil]
      unfold ConnectionThread.receiveBody at continued
      dsimp only at continued
      split at continued
      next large =>
        obtain ⟨rfl, rfl⟩ := continued.pure
        refine ⟨segments, early, reads, by omega, ?_⟩
        rw [List.append_nil]
        apply Comes.rejected
        rw [ends]
        exact if_pos large
      next fits =>
        split at continued
        next bad =>
          obtain ⟨rfl, rfl⟩ := continued.pure
          refine ⟨segments, early, reads, by omega, ?_⟩
          rw [List.append_nil]
          apply Comes.rejected
          rw [ends]
          exact (if_neg fits).trans (if_pos bad)
        next good =>
          obtain ⟨middle, final, read, rfl, bodies, continued⟩ := Program.Traced.bind continued
          obtain ⟨rest, more, limit, same⟩ := body_reads bodies (by omega)
          have size : (streamOf (segments ++ rest)).length ≤ 65536 + 4096 + 1048576 := by
            rw [Segmentation.streamOf_append, List.length_append]
            omega
          cases read with
          | none =>
            obtain ⟨rfl, rfl⟩ := continued.pure
            refine ⟨segments ++ rest, early ++ middle, reads.append more, size, ?_⟩
            rw [List.append_nil]
            apply Comes.rejected
            rw [whole, DuckdbOdata.receiveBody]
            dsimp only
            rw [if_neg fits, if_neg good, same]
          | some body =>
            obtain ⟨answer, later, rfl, responds⟩ := Program.Traced.perform continued
            obtain ⟨rfl, rfl⟩ := responds.pure
            refine ⟨segments ++ rest, early ++ middle, reads.append more, size, ?_⟩
            rw [← List.append_assoc]
            apply Comes.handled
            rw [whole, DuckdbOdata.receiveBody]
            dsimp only
            rw [if_neg fits, if_neg good, same]

private theorem sendAll_prefix {fuel : Nat} {remaining : Str} {events : List Event}
    (traced : (sendAll fuel remaining).Traced events ()) (enough : remaining.length ≤ fuel) :
    (∀ event ∈ events, ∃ bytes, event.1 = .send bytes) ∧ events.flatMap bytesSent <+: remaining ∧
      (events.flatMap bytesSent = remaining ∨ ∃ bytes, events.getLast? = some ⟨.send bytes, none⟩) := by
  induction fuel generalizing remaining events with
  | zero =>
    obtain ⟨rfl, -⟩ := traced.pure
    have empty := List.length_eq_zero_iff.mp (Nat.le_zero.mp enough)
    exact ⟨nofun, List.nil_prefix, .inl empty.symm⟩
  | succ fuel ih =>
    rw [sendAll] at traced
    split at traced
    next empty =>
      obtain ⟨rfl, -⟩ := traced.pure
      exact ⟨nofun, List.nil_prefix, .inl empty.symm⟩
    next some =>
      obtain ⟨answer, later, rfl, continued⟩ := Program.Traced.perform traced
      cases answer with
      | none =>
        obtain ⟨rfl, -⟩ := continued.pure
        refine ⟨?_, List.nil_prefix, .inr ⟨remaining, rfl⟩⟩
        intro event member
        cases List.mem_singleton.mp member
        exact ⟨remaining, rfl⟩
      | some accepted =>
        have accepts := accepted.some
        obtain ⟨sends, front, ends⟩ := ih continued (by rw [List.length_drop]; omega)
        have bytes : (⟨.send remaining, .some accepted⟩ :: later : List Event).flatMap bytesSent =
          remaining.take accepted.count ++ later.flatMap bytesSent := rfl
        refine ⟨?_, ?_, ?_⟩
        · intro event member
          rcases List.mem_cons.mp member with rfl | inside
          · exact ⟨remaining, rfl⟩
          · exact sends event inside
        · rw [bytes]
          have whole := (List.prefix_append_right_inj (remaining.take accepted.count)).mpr front
          rwa [List.take_append_drop] at whole
        · rcases ends with whole | ⟨unsent, last⟩
          · left
            rw [bytes, whole, List.take_append_drop]
          · right
            refine ⟨unsent, ?_⟩
            rw [List.getLast?_cons, last]
            rfl

/-- Why draining stops. -/
def Stops (deadline : Nat) (event : Event) : Prop :=
  (∃ time, deadline ≤ time ∧ event = ⟨.now, time⟩) ∨ event = ⟨.poll, false⟩ ∨ ∃ size, event = ⟨.recv size, none⟩

private theorem drain_bounded {deadline fuel drained : Nat} {events : List Event}
    (traced : (drain deadline fuel drained).Traced events ()) (enough : 8 * 1048576 ≤ fuel + drained)
    (small : drained < 8 * 1048576 + 8192) :
    (∀ event ∈ events, event.1 = .now ∨ event.1 = .poll ∨ ∃ size, event.1 = .recv size) ∧
      drained + (events.flatMap bytesDropped).length < 8 * 1048576 + 8192 ∧
      (8 * 1048576 ≤ drained + (events.flatMap bytesDropped).length ∨ ∃ event, events.getLast? = some event ∧ Stops deadline event) := by
  induction fuel generalizing drained events with
  | zero =>
    obtain ⟨rfl, -⟩ := traced.pure
    exact ⟨nofun, small, .inl (by simpa using enough)⟩
  | succ fuel ih =>
    rw [drain] at traced
    split at traced
    next full =>
      obtain ⟨rfl, -⟩ := traced.pure
      exact ⟨nofun, small, .inl full⟩
    next more =>
      obtain ⟨time, later, rfl, continued⟩ := Program.Traced.perform traced
      split at continued
      next late =>
        obtain ⟨rfl, -⟩ := continued.pure
        exact ⟨by simp, small, .inr ⟨_, rfl, .inl ⟨time, late, rfl⟩⟩⟩
      next early =>
        obtain ⟨ready, later, rfl, polled⟩ := Program.Traced.perform continued
        split at polled
        next idle =>
          obtain ⟨rfl, -⟩ := polled.pure
          cases idle
          exact ⟨by simp, small, .inr ⟨_, rfl, .inr (.inl rfl)⟩⟩
        next pending =>
          obtain ⟨answer, later, rfl, dropped⟩ := Program.Traced.perform polled
          cases answer with
          | none =>
            obtain ⟨rfl, -⟩ := dropped.pure
            exact ⟨by simp, small, .inr ⟨_, rfl, .inr (.inr ⟨8192, rfl⟩)⟩⟩
          | some chunk =>
            have arrived := chunk.small
            have some := List.length_pos_iff.mpr chunk.some
            obtain ⟨calls, bound, ends⟩ := ih dropped (by omega) (by omega)
            have bytes : ((⟨.now, time⟩ :: ⟨.poll, ready⟩ :: ⟨.recv 8192, .some chunk⟩ :: later : List Event).flatMap bytesDropped).length =
                chunk.bytes.length + (later.flatMap bytesDropped).length := by
              simp [bytesDropped]
            refine ⟨?_, by rw [bytes]; omega, ?_⟩
            · intro event member
              simp only [List.mem_cons] at member
              rcases member with rfl | rfl | rfl | inside
              · exact .inl rfl
              · exact .inr (.inl rfl)
              · exact .inr (.inr ⟨8192, rfl⟩)
              · exact calls event inside
            · rcases ends with full | ⟨event, last, stops⟩
              · exact .inl (by rw [bytes]; omega)
              · refine .inr ⟨event, ?_, stops⟩
                rw [List.getLast?_cons_cons, List.getLast?_cons_cons, List.getLast?_cons, last]
                rfl

/-- The order of the calls of a connection. -/
def stage : ConnectionCall → Nat
  | .read _ => 0
  | .handle _ => 1
  | .send _ => 2
  | .shutdown => 3
  | .now | .poll | .recv _ => 4
  | .close => 5

def closing : Event := ⟨.close, ()⟩

/-- The parts of a connection, one after the other. -/
structure Parts (segments : List Segment) (response : HttpResponse) (reads asked sends drains : List Event) : Prop where
  arrived : Reads reads segments
  size : (streamOf segments).length ≤ 65536 + 4096 + 1048576
  comes : Comes segments reads (reads ++ asked) response
  calls : ∀ event ∈ sends, ∃ bytes, event.1 = .send bytes
  front : sends.flatMap bytesSent <+: (withContentType response).toWire
  whole : sends.flatMap bytesSent = (withContentType response).toWire ∨ ∃ bytes, sends.getLast? = some ⟨.send bytes, none⟩
  lingers : drains = [] ∨ (withContentType response).status = 413 ∧ ∃ late, drains = ⟨.shutdown, ()⟩ :: late ∧
    ∀ event ∈ late, stage event.1 = 4
  dropped : (drains.flatMap bytesDropped).length < 8 * 1048576 + 8192

theorem connection_parts {events : List Event} (ran : handleConnection.Traced events ()) :
    ∃ segments response reads asked sends drains,
      events = reads ++ asked ++ sends ++ drains ++ [closing] ∧ Parts segments response reads asked sends drains := by
  obtain ⟨early, late, response, rfl, received, delivered⟩ := Program.Traced.bind ran
  obtain ⟨segments, reads, arrived, size, comes⟩ := receiveRequest_comes received
  obtain ⟨asked, rfl⟩ : ∃ asked, early = reads ++ asked := by
    cases comes with
    | rejected => exact ⟨[], (List.append_nil _).symm⟩
    | handled => exact ⟨_, rfl⟩
  obtain ⟨sends, after, _, rfl, sending, lingered⟩ := Program.Traced.bind delivered
  obtain ⟨calls, front, whole⟩ := sendAll_prefix sending le_rfl
  obtain ⟨drains, last, _, rfl, lingering, closed⟩ := Program.Traced.bind lingered
  obtain rfl : last = [closing] := by
    cases closed with
    | ask continued =>
      cases continued
      rfl
  refine ⟨segments, response, reads, asked, sends, drains, by simp, ?_⟩
  unfold linger at lingering
  split at lingering
  next large =>
    obtain ⟨_, after, rfl, shut⟩ := Program.Traced.perform lingering
    obtain ⟨start, later, rfl, drained⟩ := Program.Traced.perform shut
    obtain ⟨stages, bound, -⟩ := drain_bounded drained le_rfl (by decide)
    rw [Nat.zero_add] at bound
    refine ⟨arrived, size, comes, calls, front, whole, .inr ⟨large, ⟨.now, start⟩ :: later, rfl, ?_⟩, bound⟩
    intro event member
    rcases List.mem_cons.mp member with rfl | inside
    · rfl
    · rcases stages event inside with same | same | ⟨size, same⟩
      all_goals rw [same]; rfl
  next =>
    obtain ⟨rfl, -⟩ := lingering.pure
    exact ⟨arrived, size, comes, calls, front, whole, .inl rfl, by simp⟩

/-- A response is one that a run of the request handler has. It may throw anything. -/
def Handles (basePath : Str) (request : HttpRequest) (result : Except Thrown HttpResponse) : Prop :=
  ∀ response, result = .ok response → ∃ read state catalog trace, state.basePath = basePath ∧
    (handleODataRequest read state catalog request).Traced trace (.ok response)

private theorem comes_served {basePath : Str} {segments : List Segment} {reads events : List Event} {response : HttpResponse}
    (comes : Comes segments reads events response)
    (handled : ∀ request result, ⟨.handle request, result⟩ ∈ events → Handles basePath request result) : Served basePath response := by
  cases comes with
  | rejected refused =>
    have invalid : Served basePath invalidHeader ∧ Served basePath payloadTooLarge ∧ Served basePath invalidFraming :=
      ⟨served_connectionError (by decide) _ _, served_connectionError (by decide) _ _, served_connectionError (by decide) _ _⟩
    unfold receive at refused
    split at refused
    next => cases refused; exact invalid.1
    split at refused
    next => cases refused; exact invalid.1
    unfold DuckdbOdata.receiveBody at refused
    dsimp only at refused
    split at refused
    next => cases refused; exact invalid.2.1
    split at refused
    next => cases refused; exact invalid.2.2
    split at refused
    next => cases refused; exact invalid.2.2
    next => cases refused
  | handled accepted =>
    apply served_answered
    intro response same
    obtain ⟨read, state, catalog, trace, rfl, traced⟩ := handled _ _ (List.mem_append_right _ List.mem_cons_self) response same
    exact ((handler_serves read state catalog _).traced traced).2 response rfl

private theorem asked_handles {segments : List Segment} {reads asked : List Event} {response : HttpResponse}
    (comes : Comes segments reads (reads ++ asked) response) : ∀ event ∈ asked, ∃ request, event.1 = .handle request := by
  generalize whole : reads ++ asked = events at comes
  cases comes with
  | rejected =>
    cases List.self_eq_append_right.mp whole.symm
    exact nofun
  | handled =>
    cases List.append_cancel_left whole
    intro event member
    cases List.mem_singleton.mp member
    exact ⟨_, rfl⟩

private theorem Parts.stages {segments : List Segment} {response : HttpResponse} {reads asked sends drains : List Event}
    (parts : Parts segments response reads asked sends drains) :
    (∀ event ∈ reads, stage event.1 = 0) ∧ (∀ event ∈ asked, stage event.1 = 1) ∧ (∀ event ∈ sends, stage event.1 = 2) ∧
      ∀ event ∈ drains, stage event.1 = 3 ∨ stage event.1 = 4 := by
  refine ⟨?_, ?_, ?_, ?_⟩
  · intro event member
    obtain ⟨size, same⟩ := parts.arrived.reads event member
    rw [same]
    rfl
  · intro event member
    obtain ⟨request, same⟩ := asked_handles parts.comes event member
    rw [same]
    rfl
  · intro event member
    obtain ⟨bytes, same⟩ := parts.calls event member
    rw [same]
    rfl
  · intro event member
    rcases parts.lingers with rfl | ⟨-, late, rfl, stages⟩
    · cases member
    · rcases List.mem_cons.mp member with rfl | inside
      · exact .inl rfl
      · exact .inr (stages event inside)

private theorem total_of_stage {contribution : Event → Str} {part : List Event} {own : Nat}
    (silent : ∀ event, stage event.1 ≠ own → contribution event = []) (other : ∀ event ∈ part, stage event.1 ≠ own) :
    part.flatMap contribution = [] :=
  List.flatMap_eq_nil_iff.mpr fun event member => silent event (other event member)

private theorem bytesRead_stage (event : Event) (other : stage event.1 ≠ 0) : bytesRead event = [] := by
  obtain ⟨call, answer⟩ := event
  cases call with
  | read size => exact absurd rfl other
  | _ => rfl

private theorem bytesSent_stage (event : Event) (other : stage event.1 ≠ 2) : bytesSent event = [] := by
  obtain ⟨call, answer⟩ := event
  cases call with
  | send bytes => exact absurd rfl other
  | _ => rfl

private theorem bytesDropped_stage (event : Event) (other : stage event.1 ≠ 4) : bytesDropped event = [] := by
  obtain ⟨call, answer⟩ := event
  cases call with
  | recv size => exact absurd rfl other
  | _ => rfl

private theorem Parts.totals {segments : List Segment} {response : HttpResponse} {reads asked sends drains : List Event}
    (parts : Parts segments response reads asked sends drains) :
    (reads ++ asked ++ sends ++ drains ++ [closing]).flatMap bytesRead = streamOf segments ∧
      (reads ++ asked ++ sends ++ drains ++ [closing]).flatMap bytesSent = sends.flatMap bytesSent ∧
      (reads ++ asked ++ sends ++ drains ++ [closing]).flatMap bytesDropped = drains.flatMap bytesDropped := by
  obtain ⟨first, second, third, fourth⟩ := parts.stages
  have last : ∀ event ∈ [closing], stage event.1 = 5 := by simp [closing, stage]
  have apart : ∀ {part : List Event} {own other : Nat}, (∀ event ∈ part, stage event.1 = other) → other ≠ own →
      ∀ event ∈ part, stage event.1 ≠ own := by
    intro part own other here differ event member same
    exact differ ((here event member).symm.trans same)
  have drained : ∀ own, own ≠ 3 → own ≠ 4 → ∀ event ∈ drains, stage event.1 ≠ own := by
    intro own three four event member same
    rcases fourth event member with here | here
    · exact three (same.symm.trans here)
    · exact four (same.symm.trans here)
  simp only [List.flatMap_append]
  refine ⟨?_, ?_, ?_⟩
  · rw [total_of_stage bytesRead_stage (apart second (by decide)), total_of_stage bytesRead_stage (apart third (by decide)),
      total_of_stage bytesRead_stage (drained 0 (by decide) (by decide)), total_of_stage bytesRead_stage (apart last (by decide)),
      parts.arrived.bytes]
    simp
  · rw [total_of_stage bytesSent_stage (apart first (by decide)), total_of_stage bytesSent_stage (apart second (by decide)),
      total_of_stage bytesSent_stage (drained 2 (by decide) (by decide)), total_of_stage bytesSent_stage (apart last (by decide))]
    simp
  · rw [total_of_stage bytesDropped_stage (apart first (by decide)), total_of_stage bytesDropped_stage (apart second (by decide)),
      total_of_stage bytesDropped_stage (apart third (by decide)), total_of_stage bytesDropped_stage (apart last (by decide))]
    simp

private theorem Parts.answers {segments : List Segment} {response : HttpResponse} {reads asked sends drains : List Event}
    (parts : Parts segments response reads asked sends drains) {request : HttpRequest} {result : Except Thrown HttpResponse}
    (called : (⟨.handle request, result⟩ : Event) ∈ reads ++ asked ++ sends ++ drains ++ [closing]) : response = answered result := by
  obtain ⟨first, -, third, fourth⟩ := parts.stages
  have member : (⟨.handle request, result⟩ : Event) ∈ asked := by
    simp only [List.append_assoc, List.mem_append] at called
    rcases called with inside | inside | inside | inside | inside
    · cases first _ inside
    · exact inside
    · cases third _ inside
    · rcases fourth _ inside with other | other <;> cases other
    · cases List.mem_singleton.mp inside
  have comes := parts.comes
  generalize whole : reads ++ asked = events at comes
  cases comes with
  | rejected =>
    cases List.self_eq_append_right.mp whole.symm
    cases member
  | handled =>
    cases List.append_cancel_left whole
    cases List.mem_singleton.mp member
    rfl

/-- Whatever arrives, the handler does and the socket answers: the client is sent
one response with a status that has a phrase, in a form that is read as exactly
this response and nothing after it. It is the one that the handler gave, if it was
called, and all of it is sent unless the socket fails. -/
theorem connection_sends {basePath : Str} (base : Plain basePath) {events : List Event} (ran : handleConnection.Traced events ())
    (handled : ∀ request result, ⟨.handle request, result⟩ ∈ events → Handles basePath request result) :
    ∃ response, Served basePath response ∧ httpStatusPhrase response.status ≠ "Unknown" ∧
      (∀ request result, ⟨.handle request, result⟩ ∈ events → response = withContentType (answered result)) ∧
      readResponse response.toWire = some ((sentAs "HTTP/1.1".toList response).stripped, []) ∧
      events.flatMap bytesSent <+: response.toWire ∧
      (events.flatMap bytesSent = response.toWire ∨ ∃ bytes, ⟨.send bytes, none⟩ ∈ events) := by
  obtain ⟨segments, response, reads, asked, sends, drains, rfl, parts⟩ := connection_parts ran
  have served : Served basePath response := by
    apply comes_served parts.comes
    intro request result member
    apply handled request result
    simp only [List.append_assoc, List.mem_append] at member ⊢
    exact member.imp_right .inl
  have complete := served_withContentType served
  have reads := toWire_reads (served_clean base complete) "HTTP/1.1".toList (by decide) []
  rw [List.append_nil] at reads
  have phrases : ∀ status ∈ statuses, httpStatusPhrase status ≠ "Unknown" := by decide
  refine ⟨withContentType response, complete, phrases _ complete.status, ?_, reads, ?_, ?_⟩
  · intro request result called
    rw [parts.answers called]
  · rw [parts.totals.2.1]
    exact parts.front
  · rw [parts.totals.2.1]
    refine parts.whole.imp_right ?_
    intro ⟨bytes, last⟩
    refine ⟨bytes, ?_⟩
    simp only [List.append_assoc, List.mem_append]
    exact .inr (.inr (.inl (List.mem_of_getLast? last)))

/-- The requests that the handler is called with. -/
def requests : List Event → List HttpRequest :=
  List.filterMap fun event => match event.1 with
    | .handle request => some request
    | _ => none

def requestsOf : Received → List HttpRequest
  | .rejected _ => []
  | .handled request => [request]

private theorem Parts.requests {segments : List Segment} {response : HttpResponse} {reads asked sends drains : List Event}
    (parts : Parts segments response reads asked sends drains) :
    requests (reads ++ asked ++ sends ++ drains ++ [closing]) = requestsOf (receive segments) := by
  obtain ⟨first, -, third, fourth⟩ := parts.stages
  have silent : ∀ part : List Event, (∀ event ∈ part, stage event.1 ≠ 1) → ConnectionThreads.requests part = [] := by
    intro part other
    apply List.filterMap_eq_nil_iff.mpr
    rintro ⟨call, answer⟩ member
    cases call with
    | handle request => exact absurd rfl (other _ member)
    | _ => rfl
  have split : ∀ early late : List Event, ConnectionThreads.requests (early ++ late) =
      ConnectionThreads.requests early ++ ConnectionThreads.requests late := fun _ _ => List.filterMap_append
  have read := silent reads fun event member same => by rw [first event member] at same; cases same
  have sent := silent sends fun event member same => by rw [third event member] at same; cases same
  have drained := silent drains fun event member same => by rcases fourth event member with here | here <;> omega
  have closed : ConnectionThreads.requests [closing] = [] := rfl
  have comes := parts.comes
  rw [split, split, split, split, read, sent, drained, closed]
  generalize whole : reads ++ asked = events at comes
  cases comes with
  | rejected refused =>
    cases List.self_eq_append_right.mp whole.symm
    rw [refused]
    rfl
  | handled accepted =>
    cases List.append_cancel_left whole
    rw [accepted]
    rfl

/-- In every run the calls come in order, and closing is the last one. A bounded
number of bytes is read and dropped, and the handler is called once with the
request in the bytes that arrived, or not at all. -/
theorem connection_order {events : List Event} (ran : handleConnection.Traced events ()) :
    (events.map fun event => stage event.1).Pairwise (· ≤ ·) ∧
      (∃ before, events = before ++ [closing] ∧ ∀ event ∈ before, stage event.1 < 5) ∧
      (∃ segments, events.flatMap bytesRead = streamOf segments ∧ (streamOf segments).length ≤ 65536 + 4096 + 1048576 ∧
        requests events = requestsOf (receive segments)) ∧
      (events.flatMap bytesDropped).length < 8 * 1048576 + 8192 := by
  obtain ⟨segments, response, reads, asked, sends, drains, rfl, parts⟩ := connection_parts ran
  obtain ⟨read, sent, dropped⟩ := parts.totals
  obtain ⟨first, second, third, fourth⟩ := parts.stages
  refine ⟨?_, ⟨_, rfl, ?_⟩, ⟨segments, read, parts.size, parts.requests⟩, dropped ▸ parts.dropped⟩
  · rw [List.pairwise_map]
    have alike : ∀ {part : List Event} {own : Nat}, (∀ event ∈ part, stage event.1 = own) →
        part.Pairwise fun one other => stage one.1 ≤ stage other.1 := by
      intro part own same
      apply List.pairwise_of_forall_mem_list
      intro one here other there
      rw [same one here, same other there]
    have draining : drains.Pairwise fun one other => stage one.1 ≤ stage other.1 := by
      rcases parts.lingers with rfl | ⟨-, late, rfl, stages⟩
      · exact .nil
      · refine .cons ?_ (alike stages)
        intro event member
        rw [stages event member]
        decide
    have ending : stage closing.1 = 5 := rfl
    simp only [List.append_assoc, List.pairwise_append, List.mem_append, List.mem_singleton]
    refine ⟨alike first, ⟨alike second, ⟨alike third, ⟨draining, List.pairwise_singleton _ _, ?_⟩, ?_⟩, ?_⟩, ?_⟩
    · rintro one here other rfl
      have := fourth one here
      rw [ending]
      omega
    · rintro one here other (there | rfl)
      · have := third one here
        have := fourth other there
        omega
      · have := third one here
        rw [ending]
        omega
    · rintro one here other (there | there | rfl)
      · have := second one here
        have := third other there
        omega
      · have := second one here
        have := fourth other there
        omega
      · have := second one here
        rw [ending]
        omega
    · rintro one here other -
      have := first one here
      omega
  · intro event member
    simp only [List.mem_append] at member
    rcases member with ((inside | inside) | inside) | inside
    · have := first event inside; omega
    · have := second event inside; omega
    · have := third event inside; omega
    · have := fourth event inside; omega

private theorem sendAll_once {fuel : Nat} (enough : 0 < fuel) {wire : Str} (present : 0 < wire.length) :
    (sendAll fuel wire).Traced [⟨.send wire, some ⟨wire.length, present, le_rfl⟩⟩] () := by
  obtain ⟨fuel, rfl⟩ := Nat.exists_eq_add_of_lt enough
  rw [Nat.zero_add, sendAll, if_neg (List.length_pos_iff.mp present)]
  apply Program.Traced.asks
  dsimp only
  rw [List.drop_length]
  cases fuel with
  | zero => exact .done
  | succ fuel => exact .done

private def asking : Str := "GET /odata HTTP/1.1\r\nContent-Length: 3\r\n\r\n".toList

private def asked : HttpRequest := { requestOf "GET".toList "/odata".toList [("content-length".toList, "3".toList)] with body := "abc".toList }

private def things : ServerState := { bindings := [{ name := "things".toList, table := "things".toList }] }

private def catalog : Catalog := ⟨fun _ => .ok [{ columnName := "id".toList, dataType := "BIGINT".toList }], fun _ => .ok []⟩

private def listed : HttpResponse := makeJson 200 (serviceDocument things catalog)

private def wire : Str := (withContentType listed).toWire

private theorem wire_long : 17 < wire.length := by decide +kernel

/-- A request whose body arrives in two pieces; its answer is sent in two pieces. -/
def askedRun : List Event :=
  [⟨.read 4096, some ⟨asking ++ "ab".toList, by decide, by decide⟩⟩, ⟨.read 1, some ⟨"c".toList, by decide, by decide⟩⟩,
    ⟨.handle asked, .ok listed⟩, ⟨.send wire, some ⟨17, by decide, wire_long.le⟩⟩,
    ⟨.send (wire.drop 17), some ⟨(wire.drop 17).length, by rw [List.length_drop]; have := wire_long; omega, le_rfl⟩⟩, closing]

private theorem asked_handled : handleODataRequest (fun _ => none) things catalog asked = respond listed := rfl

private theorem asked_heads : (ConnectionThread.readRequestHead 65537 []).Traced (askedRun.take 1) (some (asking, "ab".toList)) := by
  have found : cutText blankLine (asking ++ "ab".toList) = some ("GET /odata HTTP/1.1\r\nContent-Length: 3".toList, "ab".toList) := by
    decide +kernel
  apply Program.Traced.asks
  dsimp only
  rw [List.nil_append, found]
  exact .done

private theorem asked_received : receiveRequest.Traced (askedRun.take 3) listed := by
  have parsed : parseHttpRequest asking = some { asked with body := [] } := by decide +kernel
  have framing : bodyFraming { asked with body := [] } = (true, 3) := by decide +kernel
  have body : (ConnectionThread.receiveBody { asked with body := [] } "ab".toList).Traced ((askedRun.take 3).drop 1) listed := by
    unfold ConnectionThread.receiveBody
    rw [framing]
    exact .ask (.ask .done)
  unfold receiveRequest
  apply asked_heads.andThen
  dsimp only
  rw [parsed]
  exact body

private theorem asked_traced : handleConnection.Traced askedRun () := by
  have long := wire_long
  have sends : (sendAll wire.length wire).Traced ((askedRun.drop 3).take 2) () := by
    obtain ⟨fuel, more⟩ := Nat.exists_eq_add_of_lt (Nat.zero_lt_of_lt long)
    rw [more, Nat.zero_add, sendAll, if_neg (List.length_pos_iff.mp (Nat.zero_lt_of_lt long))]
    exact .ask (sendAll_once (by omega) _)
  have closes : Program.Traced (do linger (withContentType listed); close) [closing] () := .ask .done
  have delivers : (deliver (withContentType listed)).Traced (askedRun.drop 3) () := by
    unfold deliver
    exact sends.andThen closes
  unfold handleConnection
  exact asked_received.andThen delivers

private theorem asked_called {request : HttpRequest} {result : Except Thrown HttpResponse}
    (called : (⟨.handle request, result⟩ : Event) ∈ askedRun) : request = asked ∧ result = .ok listed := by
  simp only [askedRun, closing, List.mem_cons, List.not_mem_nil, or_false] at called
  rcases called with same | same | same | same | same | same
  all_goals cases same
  exact ⟨rfl, rfl⟩

theorem connection_sends_asked :
    ∃ response, Served "/odata".toList response ∧ httpStatusPhrase response.status ≠ "Unknown" ∧
      (∀ request result, ⟨.handle request, result⟩ ∈ askedRun → response = withContentType (answered result)) ∧
      readResponse response.toWire = some ((sentAs "HTTP/1.1".toList response).stripped, []) ∧
      askedRun.flatMap bytesSent <+: response.toWire ∧
      (askedRun.flatMap bytesSent = response.toWire ∨ ∃ bytes, ⟨.send bytes, none⟩ ∈ askedRun) := by
  apply connection_sends (by decide) asked_traced
  intro request result called response same
  obtain ⟨rfl, rfl⟩ := asked_called called
  cases same
  refine ⟨fun _ => none, things, catalog, [], rfl, ?_⟩
  rw [asked_handled]
  exact .done

theorem connection_order_asked :
    (askedRun.map fun event => stage event.1).Pairwise (· ≤ ·) ∧
      (∃ before, askedRun = before ++ [closing] ∧ ∀ event ∈ before, stage event.1 < 5) ∧
      (∃ segments, askedRun.flatMap bytesRead = streamOf segments ∧ (streamOf segments).length ≤ 65536 + 4096 + 1048576 ∧
        [asked] = requestsOf (receive segments)) ∧
      (askedRun.flatMap bytesDropped).length < 8 * 1048576 + 8192 := connection_order asked_traced

end DuckdbOdata.ConnectionThreads
