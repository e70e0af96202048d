import DuckdbOdata.Proofs.Segmentation

/-! Which requests reach the handler, and with which body. The loop over the
digits of `Content-Length` stops before its accumulator can wrap. -/

namespace DuckdbOdata.BodyFraming
open Text Segmentation

/-- The length that the header promises: none is 0, and any number of leading
zeros is allowed. -/
def Declares (request : HttpRequest) (n : Nat) : Prop :=
  match request.header? "Content-Length".toList with
  | none => n = 0
  | some text => text ≠ [] ∧ (∀ c ∈ text, c.isDigit = true) ∧ Nat.ofDigitChars 10 text 0 = n

private theorem isDigit_bounds (c : Char) : c.isDigit = true ↔ ¬ (c < '0' ∨ '9' < c) := by
  rw [Char.isDigit, Bool.and_eq_true, decide_eq_true_eq, decide_eq_true_eq, not_or, Char.not_lt, Char.not_lt]
  rfl

private theorem digit_small {c : Char} (digit : c.isDigit = true) : c.toNat - '0'.toNat ≤ 9 := by
  have high := Char.le_def.mp (Char.not_lt.mp (not_or.mp ((isDigit_bounds c).mp digit)).2)
  have bound : c.toNat ≤ 57 := UInt32.le_iff_toNat_le.mp high
  have zero : '0'.toNat = 48 := rfl
  omega

private theorem contentLength_cons (valid : Bool) (length : Nat) (c : Char) (rest : Str) :
    contentLength valid length (c :: rest) =
      if c.isDigit = true ∧ length ≤ 1048576 then contentLength valid (length * 10 + (c.toNat - '0'.toNat)) rest
      else (false, length) := by
  have stops : (c < '0' ∨ '9' < c ∨ 1048576 < length) ↔ ¬ (c.isDigit = true ∧ length ≤ 1048576) := by
    rw [isDigit_bounds, not_and_or, not_not, not_le, or_assoc]
  rw [contentLength]
  simp only [stops, ite_not]

/-- The accumulator is small enough for any machine word, whatever the header says. -/
theorem contentLength_bounded (valid : Bool) (length : Nat) (text : Str) (small : length ≤ 10485769) :
    (contentLength valid length text).2 ≤ 10485769 := by
  induction text generalizing length with
  | nil => exact small
  | cons c rest ih =>
    rw [contentLength_cons]
    split
    next both =>
      have digit := digit_small both.1
      exact ih _ (by omega)
    next => exact small

/-- What the accumulator holds is the value of some of the first digits. -/
theorem contentLength_front (valid : Bool) (length : Nat) (text : Str) :
    ∃ front, front <+: text ∧ (∀ c ∈ front, c.isDigit = true) ∧
      (contentLength valid length text).2 = Nat.ofDigitChars 10 front length := by
  induction text generalizing length with
  | nil => exact ⟨[], List.prefix_rfl, nofun, rfl⟩
  | cons c rest ih =>
    rw [contentLength_cons]
    split
    next both =>
      obtain ⟨front, first, digits, same⟩ := ih (length * 10 + (c.toNat - '0'.toNat))
      refine ⟨c :: front, List.cons_prefix_cons.mpr ⟨rfl, first⟩, List.forall_mem_cons.mpr ⟨both.1, digits⟩, ?_⟩
      rw [same, Nat.ofDigitChars_cons, Nat.mul_comm]
    next => exact ⟨[], List.nil_prefix, nofun, rfl⟩

/-- A loop that ends validly has read every digit. -/
theorem contentLength_valid {valid : Bool} {length : Nat} {text : Str} (ends : (contentLength valid length text).1 = true) :
    valid = true ∧ (∀ c ∈ text, c.isDigit = true) ∧ (contentLength valid length text).2 = Nat.ofDigitChars 10 text length := by
  induction text generalizing length with
  | nil => exact ⟨ends, nofun, rfl⟩
  | cons c rest ih =>
    rw [contentLength_cons] at ends ⊢
    split at ends
    next both =>
      obtain ⟨before, digits, same⟩ := ih ends
      rw [if_pos both, same, Nat.ofDigitChars_cons, Nat.mul_comm]
      exact ⟨before, List.forall_mem_cons.mpr ⟨both.1, digits⟩, rfl⟩
    next => cases ends

theorem le_ofDigitChars (text : Str) (length : Nat) : length ≤ Nat.ofDigitChars 10 text length := by
  induction text generalizing length with
  | nil => exact Nat.le_refl length
  | cons c rest ih =>
    rw [Nat.ofDigitChars_cons]
    have later := ih (10 * length + (c.toNat - '0'.toNat))
    omega

/-- Digits within the limit are all read. -/
theorem contentLength_digits {length : Nat} {text : Str} (valid : Bool) (digits : ∀ c ∈ text, c.isDigit = true)
    (small : Nat.ofDigitChars 10 text length ≤ 1048576) :
    contentLength valid length text = (valid, Nat.ofDigitChars 10 text length) := by
  induction text generalizing length with
  | nil => rfl
  | cons c rest ih =>
    obtain ⟨digit, later⟩ := List.forall_mem_cons.mp digits
    rw [Nat.ofDigitChars_cons] at small ⊢
    have grown := le_ofDigitChars rest (10 * length + (c.toNat - '0'.toNat))
    rw [contentLength_cons, if_pos ⟨digit, by omega⟩, Nat.mul_comm length 10]
    exact ih later small

theorem bodyFraming_declares (request : HttpRequest) {n : Nat} (small : n ≤ 1048576) :
    bodyFraming request = (true, n) ↔ request.hasHeader "Transfer-Encoding".toList = false ∧ Declares request n := by
  have fits : ∀ text, contentLength true 0 text = (true, n) ↔
      (∀ c ∈ text, c.isDigit = true) ∧ Nat.ofDigitChars 10 text 0 = n := by
    intro text
    constructor
    · intro ends
      obtain ⟨-, digits, same⟩ := contentLength_valid (congrArg Prod.fst ends)
      exact ⟨digits, same.symm.trans (congrArg Prod.snd ends)⟩
    · rintro ⟨digits, rfl⟩
      exact contentLength_digits true digits small
  have invalid : ∀ text, contentLength false 0 text ≠ (true, n) := by
    intro text ends
    exact absurd (contentLength_valid (congrArg Prod.fst ends)).1 (by decide)
  unfold bodyFraming Declares HttpRequest.getHeader HttpRequest.hasHeader
  cases request.header? "Transfer-Encoding".toList with
  | some coding => simp [invalid]
  | none =>
    cases request.header? "Content-Length".toList with
    | none => simp [contentLength, eq_comm]
    | some text =>
      by_cases empty : text = []
      · simp [empty, invalid]
      · simp [empty, fits]

/-- The handler is called exactly for a declared body that arrives whole, and is
given this body. -/
theorem receiveBody_handled (request given : HttpRequest) (body : Str) (rest : List Segment) :
    receiveBody request body rest = .handled given ↔
      request.hasHeader "Transfer-Encoding".toList = false ∧ ∃ n, Declares request n ∧ n ≤ 1048576 ∧
        n ≤ (body ++ streamOf rest).length ∧ given = { request with body := (body ++ streamOf rest).take n } := by
  rw [receiveBody_framed]
  constructor
  · intro handled
    unfold framed at handled
    simp only at handled
    split at handled
    next => cases handled
    next small =>
      split at handled
      next => cases handled
      next complete =>
        cases handled
        simp only [not_or, Bool.not_eq_false, not_lt] at complete
        have frames := (bodyFraming_declares request (Nat.not_lt.mp small)).mp (Prod.ext complete.1 rfl)
        exact ⟨frames.1, _, frames.2, Nat.not_lt.mp small, complete.2, rfl⟩
  · rintro ⟨plain, n, declares, small, arrived, rfl⟩
    have frames := (bodyFraming_declares request small).mpr ⟨plain, declares⟩
    unfold framed
    simp only [frames]
    rw [if_neg (Nat.not_lt.mpr small), if_neg]
    rintro (invalid | short)
    · cases invalid
    · omega

/-- Only digits that are too large by themselves are answered with 413. -/
theorem payloadTooLarge_front {request : HttpRequest} {body : Str} {rest : List Segment}
    (large : receiveBody request body rest = .rejected payloadTooLarge) :
    ∃ front, front <+: request.getHeader "Content-Length".toList ∧ (∀ c ∈ front, c.isDigit = true) ∧
      1048576 < Nat.ofDigitChars 10 front 0 := by
  rw [receiveBody_framed] at large
  unfold framed at large
  simp only at large
  split at large
  next exceeds =>
    obtain ⟨front, first, digits, same⟩ := contentLength_front
      (!request.hasHeader "Transfer-Encoding".toList &&
        !(request.hasHeader "Content-Length".toList && request.getHeader "Content-Length".toList = [])) 0
      (request.getHeader "Content-Length".toList)
    exact ⟨front, first, digits, same ▸ exceeds⟩
  next =>
    split at large
    next => exact absurd (Received.rejected.inj large) (by decide)
    next => cases large

/-- What `HandleConnection` does with a head that parses and the bytes after it.
The accumulator is bounded after every prefix of the header, so it never wraps. -/
theorem receive_framing {segments rest : List Segment} {head body : Str} {request : HttpRequest}
    (read : readRequestHead [] segments = some (head, body, rest)) (parsed : parseHttpRequest head = some request) :
    (∀ given, receive segments = .handled given ↔
      request.hasHeader "Transfer-Encoding".toList = false ∧ ∃ n, Declares request n ∧ n ≤ 1048576 ∧
        n ≤ (body ++ streamOf rest).length ∧ given = { request with body := (body ++ streamOf rest).take n }) ∧
      (receive segments = .rejected payloadTooLarge →
        ∃ front, front <+: request.getHeader "Content-Length".toList ∧ (∀ c ∈ front, c.isDigit = true) ∧
          1048576 < Nat.ofDigitChars 10 front 0) ∧
      ∀ valid front, front <+: request.getHeader "Content-Length".toList → (contentLength valid 0 front).2 ≤ 10485769 := by
  have outcome : receive segments = receiveBody request body rest := by
    rw [receive, read]
    simp only [parsed]
  rw [outcome]
  exact ⟨fun given => receiveBody_handled request given body rest, payloadTooLarge_front,
    fun valid front _ => contentLength_bounded valid 0 front (by decide)⟩

private def shortPost : Segment :=
  ⟨"POST /items HTTP/1.1\r\nContent-Length: 02\r\n\r\nhi!".toList, by decide, by decide⟩

private def postItems : HttpRequest := requestOf "POST".toList "/items".toList [("content-length".toList, "02".toList)]

/-- A body of two bytes, announced with a leading zero and followed by a third one. -/
theorem receive_framing_short : receive [shortPost] = .handled { postItems with body := "hi".toList } := by
  have read : readRequestHead [] [shortPost] =
      some ("POST /items HTTP/1.1\r\nContent-Length: 02\r\n\r\n".toList, "hi!".toList, []) := rfl
  have parsed : parseHttpRequest "POST /items HTTP/1.1\r\nContent-Length: 02\r\n\r\n".toList = some postItems := rfl
  have declares : Declares postItems 2 := by
    show "02".toList ≠ [] ∧ (∀ c ∈ "02".toList, c.isDigit = true) ∧ Nat.ofDigitChars 10 "02".toList 0 = 2
    exact ⟨by decide, every (by decide), rfl⟩
  exact ((receive_framing read parsed).1 _).mpr ⟨rfl, 2, declares, by decide, by decide, rfl⟩

end DuckdbOdata.BodyFraming
