import DuckdbOdata.Proofs.HttpTargets
import DuckdbOdata.Server.HttpServer

/-! Requests and the segments in which they arrive. Where the blank line lies
across the limit of 64 KiB, the outcome depends on where the stream was cut. -/

namespace DuckdbOdata.Segmentation
open Text HttpTargets

@[simp] theorem streamOf_nil : streamOf [] = [] := rfl

@[simp] theorem streamOf_cons (chunk : Segment) (rest : List Segment) : streamOf (chunk :: rest) = chunk.bytes ++ streamOf rest := rfl

/-- The body loop sees the stream only. -/
theorem readBody_stream (length : Nat) (body : Str) (segments : List Segment) :
    (readBody length body segments).map (·.take length) =
      if length ≤ (body ++ streamOf segments).length then some ((body ++ streamOf segments).take length) else none := by
  induction segments generalizing body with
  | nil =>
    simp only [readBody, streamOf_nil, List.append_nil]
    split <;> rfl
  | cons chunk rest ih =>
    rw [readBody, streamOf_cons]
    split
    next enough =>
      rw [Option.map_some, if_pos (by rw [List.length_append]; omega), List.take_append_of_le_length enough]
    next missing =>
      rw [ih]
      by_cases fits : chunk.bytes.length ≤ length - body.length
      · rw [List.take_of_length_le fits, List.append_assoc]
      · have exact' : (body ++ chunk.bytes.take (length - body.length)).length = length := by
          rw [List.length_append, List.length_take]
          omega
        have enough : length ≤ (body ++ (chunk.bytes ++ streamOf rest)).length := by
          simp only [List.length_append]
          omega
        have left : (body ++ chunk.bytes.take (length - body.length) ++ streamOf rest).take length =
            body ++ chunk.bytes.take (length - body.length) := by
          rw [List.take_append_of_le_length exact'.ge, List.take_of_length_le exact'.le]
        have right : (body ++ (chunk.bytes ++ streamOf rest)).take length =
            body ++ chunk.bytes.take (length - body.length) := by
          rw [List.take_append, List.take_of_length_le (by omega), List.take_append_of_le_length (by omega)]
        rw [if_pos (by rw [List.length_append]; omega), if_pos enough, left, right]

/-- What a head and the bytes after it come to. -/
def framed (request : HttpRequest) (after : Str) : Received :=
  let (valid, length) := bodyFraming request
  if 1048576 < length then .rejected payloadTooLarge
  else if valid = false ∨ after.length < length then .rejected invalidFraming
  else .handled { request with body := after.take length }

theorem receiveBody_framed (request : HttpRequest) (body : Str) (rest : List Segment) :
    receiveBody request body rest = framed request (body ++ streamOf rest) := by
  unfold receiveBody framed
  simp only
  have stream := readBody_stream (bodyFraming request).2 body rest
  split
  next => rfl
  split
  next invalid => rw [if_pos (.inl invalid)]
  next valid =>
    split at stream
    next enough =>
      obtain ⟨read, known, same⟩ := Option.map_eq_some_iff.mp stream
      have complete : ¬ ((bodyFraming request).1 = false ∨ (body ++ streamOf rest).length < (bodyFraming request).2) := by
        rintro (other | short)
        · exact valid other
        · omega
      rw [known, if_neg complete]
      simp only [same]
    next missing =>
      rw [Option.map_eq_none_iff.mp stream, if_pos (.inr (by omega))]

/-- A head that is read is the first one of the stream, and not too long. -/
theorem readRequestHead_found {buffer head body : Str} {segments rest : List Segment}
    (read : readRequestHead buffer segments = some (head, body, rest)) :
    ∃ lines after, cutText blankLine (buffer ++ streamOf segments) = some (lines, after) ∧ lines.length ≤ 65536 ∧
      head = lines ++ blankLine ∧ body ++ streamOf rest = after := by
  induction segments generalizing buffer with
  | nil => cases read
  | cons chunk others ih =>
    rw [readRequestHead] at read
    split at read
    next lines inside found =>
      split at read
      next => cases read
      next short =>
        cases read
        have whole := cutText_append found (streamOf rest)
        rw [List.append_assoc, ← streamOf_cons] at whole
        exact ⟨lines, _, whole, by omega, rfl, rfl⟩
    next =>
      split at read
      next => cases read
      next =>
        rw [streamOf_cons, ← List.append_assoc]
        exact ih read

/-- A blank line that ends within the limit is always found. -/
theorem readRequestHead_early {buffer lines after : Str} {segments : List Segment} (short : buffer.length < lines.length + 4)
    (found : cutText blankLine (buffer ++ streamOf segments) = some (lines, after)) (early : lines.length < 65534) :
    (readRequestHead buffer segments).isSome := by
  induction segments generalizing buffer with
  | nil =>
    have whole := congrArg List.length (cutText_join found)
    simp [blankLine] at whole
    omega
  | cons chunk others ih =>
    rw [streamOf_cons, ← List.append_assoc] at found
    rw [readRequestHead]
    by_cases arrived : lines.length + 4 ≤ (buffer ++ chunk.bytes).length
    · obtain ⟨rest, known, -⟩ := cutText_arrived found arrived
      simp only [known]
      rw [if_neg (by omega)]
      rfl
    · have missing := cutText_pending found (by simpa [blankLine] using arrived)
      simp only [missing]
      rw [if_neg (by omega)]
      exact ih (by omega) found

private theorem readRequestHead_pending {buffer : Str} {front rest : List Segment}
    (missing : cutText blankLine (buffer ++ streamOf front) = none) (short : (buffer ++ streamOf front).length ≤ 65536) :
    readRequestHead buffer (front ++ rest) = readRequestHead (buffer ++ streamOf front) rest := by
  induction front generalizing buffer with
  | nil => simp
  | cons chunk front ih =>
    rw [streamOf_cons, ← List.append_assoc] at missing short ⊢
    have none : cutText blankLine (buffer ++ chunk.bytes) = none := by
      by_contra some
      obtain ⟨⟨lines, after⟩, known⟩ := Option.ne_none_iff_exists'.mp some
      rw [cutText_append known] at missing
      cases missing
    rw [List.cons_append, readRequestHead]
    simp only [none]
    rw [if_neg (by rw [List.length_append] at short; omega)]
    exact ih missing short

/-- What the stream alone says, if its blank line keeps away from the limit. -/
def verdict (stream : Str) : Received :=
  match cutText blankLine stream with
  | some (lines, after) =>
    if lines.length < 65534 then
      match parseHttpRequest (lines ++ blankLine) with
      | none => .rejected invalidHeader
      | some request => framed request after
    else .rejected invalidHeader
  | none => .rejected invalidHeader

/-- The blank line starts within the limit and ends beyond it, after a head that
is well formed. -/
def Straddles (stream : Str) : Prop :=
  ∃ lines after request, cutText blankLine stream = some (lines, after) ∧ 65534 ≤ lines.length ∧ lines.length ≤ 65536 ∧
    parseHttpRequest (lines ++ blankLine) = some request

theorem receive_verdict {segments : List Segment} (clear : ¬ Straddles (streamOf segments)) :
    receive segments = verdict (streamOf segments) := by
  unfold receive verdict
  cases read : readRequestHead [] segments with
  | none =>
    simp only
    split
    next lines after found =>
      split
      next early =>
        have some := @readRequestHead_early [] lines after segments (by simp) found early
        simp [read] at some
      next => rfl
    next => rfl
  | some found =>
    obtain ⟨head, body, rest⟩ := found
    obtain ⟨lines, after, cut, short, rfl, rfl⟩ := readRequestHead_found read
    rw [List.nil_append] at cut
    simp only [cut]
    cases parsed : parseHttpRequest (lines ++ blankLine) with
    | none => simp
    | some request =>
      have early : lines.length < 65534 := by
        by_contra late
        exact clear ⟨lines, _, request, cut, by omega, short, parsed⟩
      simp only [if_pos early]
      exact receiveBody_framed request body rest

theorem framed_accepted (request : HttpRequest) (after : Str) : framed request after ≠ .rejected invalidHeader := by
  unfold framed
  simp only
  split
  next => decide
  split
  next => decide
  next => nofun

/-- One byte at a time. -/
def singles (text : Str) : List Segment := text.map fun c => ⟨[c], by simp, by simp⟩

@[simp] theorem streamOf_singles (text : Str) : streamOf (singles text) = text := by
  simp [streamOf, singles, List.flatMap_map]

@[simp] theorem streamOf_append (first last : List Segment) : streamOf (first ++ last) = streamOf first ++ streamOf last := by
  simp [streamOf]

private theorem receive_refused {stream lines after : Str} (cut : cutText blankLine stream = some (lines, after))
    (late : 65534 ≤ lines.length) : receive (singles stream) = .rejected invalidHeader := by
  have marker : blankLine.length = 4 := rfl
  have whole := congrArg List.length (cutText_join cut)
  rw [List.length_append, List.length_append] at whole
  have length : (stream.take 65536).length = 65536 := by
    rw [List.length_take]
    omega
  obtain ⟨c, more, rest⟩ : ∃ c more, stream.drop 65536 = c :: more := by
    apply List.exists_cons_of_length_pos
    rw [List.length_drop]
    omega
  rw [← List.take_append_drop 65536 stream, rest] at cut
  have pending := cutText_pending cut (by omega)
  rw [List.append_cons] at cut
  have beyond := cutText_pending cut (by rw [List.length_append, length, List.length_singleton]; omega)
  have refused : readRequestHead [] (singles (stream.take 65536) ++ singles (c :: more)) = none := by
    rw [readRequestHead_pending (by simpa using pending) (by simp), streamOf_singles, List.nil_append, singles, List.map_cons,
      readRequestHead]
    simp only [beyond]
    rw [if_pos (by rw [List.length_append, length]; simp)]
  have split : singles stream = singles (stream.take 65536) ++ singles (c :: more) := by
    rw [← rest, singles, singles, singles, ← List.map_append, List.take_append_drop]
  rw [receive, split, refused]

private theorem receive_accepted {stream lines after : Str} {request : HttpRequest}
    (cut : cutText blankLine stream = some (lines, after)) (short : lines.length ≤ 65536)
    (parsed : parseHttpRequest (lines ++ blankLine) = some request) :
    ∃ segments, streamOf segments = stream ∧ receive segments = framed request after := by
  have whole := cutText_join cut
  have pending : cutText blankLine lines = none := by
    rw [whole, List.append_assoc] at cut
    exact cutText_pending cut (by simp [blankLine])
  obtain ⟨rest, arrived, joined⟩ := cutText_arrived (whole ▸ cut) (by simp)
  have nothing : rest = [] := by
    have again := congrArg List.length (cutText_join arrived)
    simp only [List.length_append] at again
    exact List.eq_nil_of_length_eq_zero (by omega)
  subst nothing
  refine ⟨singles lines ++ ⟨blankLine, by decide, by decide⟩ :: singles after, by simp [whole], ?_⟩
  have read : readRequestHead [] (singles lines ++ ⟨blankLine, by decide, by decide⟩ :: singles after) =
      some (lines ++ blankLine, [], singles after) := by
    rw [readRequestHead_pending (by simpa using pending) (by simpa using short), streamOf_singles, List.nil_append,
      readRequestHead]
    simp only [arrived]
    rw [if_neg (by omega)]
  rw [receive, read]
  simp only [parsed]
  rw [receiveBody_framed, List.nil_append, streamOf_singles]

/-- The same bytes come to two outcomes if their blank line straddles the limit. -/
theorem straddles_differ {stream : Str} (straddles : Straddles stream) :
    ∃ first last : List Segment, streamOf first = stream ∧ streamOf last = stream ∧ receive first ≠ receive last := by
  obtain ⟨lines, after, request, cut, late, short, parsed⟩ := straddles
  obtain ⟨segments, same, accepted⟩ := receive_accepted cut short parsed
  refine ⟨segments, singles stream, same, streamOf_singles stream, ?_⟩
  rw [accepted, receive_refused cut late]
  exact framed_accepted request after

/-- All ways to cut a stream come to the same outcome exactly if its blank line
does not straddle the limit after a well-formed head. -/
theorem receive_independent (stream : Str) :
    (∀ first last, streamOf first = stream → streamOf last = stream → receive first = receive last) ↔ ¬ Straddles stream := by
  constructor
  · intro same straddles
    obtain ⟨first, last, one, other, differ⟩ := straddles_differ straddles
    exact differ (same first last one other)
  · rintro clear first last rfl same
    rw [receive_verdict clear, receive_verdict (same ▸ clear), same]

private theorem long_straddles {filler : Str} (plain : ∀ c ∈ filler, c = 'a') (length : filler.length = 65520) :
    Straddles ("GET /".toList ++ filler ++ " HTTP/1.1\r\n\r\n".toList) := by
  have names : Word ('/' :: filler) := by
    refine ⟨List.cons_ne_nil _ _, fun c member => ?_⟩
    rcases List.mem_cons.mp member with rfl | member
    · rfl
    · rw [plain c member]
      rfl
  have line : '\r' ∉ "GET /".toList ++ filler ++ " HTTP/1.1".toList := by
    simp only [List.mem_append, not_or]
    refine ⟨⟨by decide, fun member => ?_⟩, by decide⟩
    exact absurd (plain _ member) (by decide)
  obtain ⟨request, parsed⟩ : ∃ request,
      parseHttpRequest ("GET /".toList ++ filler ++ " HTTP/1.1".toList ++ blankLine) = some request := by
    have head : "GET /".toList ++ filler ++ " HTTP/1.1".toList ++ blankLine =
        requestHead "GET".toList ('/' :: filler) "\r\n".toList := by
      simp [blankLine, requestHead]
    rw [head, parseHttpRequest_target word_get names]
    exact ⟨_, rfl⟩
  have whole : "GET /".toList ++ filler ++ " HTTP/1.1\r\n\r\n".toList =
      "GET /".toList ++ filler ++ " HTTP/1.1".toList ++ blankLine ++ [] := by
    simp [blankLine]
  rw [whole]
  refine ⟨_, [], request, cutText_plain line [], ?_, ?_, parsed⟩ <;> simp [length]

theorem receive_straddled :
    ∃ first last : List Segment, streamOf first = streamOf last ∧
      streamOf first = "GET /".toList ++ List.replicate 65520 'a' ++ " HTTP/1.1\r\n\r\n".toList ∧ receive first ≠ receive last := by
  obtain ⟨first, last, one, other, differ⟩ :=
    straddles_differ (long_straddles (fun c => List.eq_of_mem_replicate) List.length_replicate)
  exact ⟨first, last, one.trans other.symm, one, differ⟩

end DuckdbOdata.Segmentation
