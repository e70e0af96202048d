import DuckdbOdata.Foundation.HttpMessage
import DuckdbOdata.Proofs.HandlerCalls
import DuckdbOdata.Server.HttpResponse
import Mathlib.Data.List.Nodup

/-! The bytes of a response are one response to every reader: nothing in it can
end its head early or start a second response. -/

namespace DuckdbOdata.ResponseWires
open Text HttpMessage

/-- `Content-Length` is added unless the status or a header excludes it. -/
def lengthField (response : HttpResponse) : List (Str × Str) :=
  if response.status ≠ 204 ∧ response.hasHeader "Content-Length".toList = false ∧
      response.hasHeader "Transfer-Encoding".toList = false then
    [("Content-Length".toList, Nat.toDigits 10 response.body.length)]
  else []

/-- The message that the wire of a response is meant to be. -/
def sentAs (httpVersion : Str) (response : HttpResponse) : Response where
  version := httpVersion
  status := response.status
  reason := (httpStatusPhrase response.status).toList
  fields := response.listed ++ lengthField response ++ [("Connection".toList, "close".toList)]
  body := response.body

theorem toWire_render (httpVersion : Str) (response : HttpResponse) :
    response.toWire httpVersion = (sentAs httpVersion response).render := by
  have digits : ∀ n : Nat, intText n = Nat.toDigits 10 n := fun n => if_neg (by omega)
  have lines : ∀ fields : List (Str × Str),
      (fields.map renderField).flatMap (fun line => line ++ "\r\n".toList) = fields.flatMap headerLine := by
    intro fields
    rw [List.flatMap_map]
    rfl
  unfold HttpResponse.toWire Response.render Response.lines sentAs
  rw [List.flatMap_cons, lines, List.flatMap_append, List.flatMap_append, lengthField, digits, digits]
  split <;> simp [headerLine]

/-- Every header stays one line, none frames the body, and a status without a
body has none. -/
structure Clean (response : HttpResponse) : Prop where
  fields : ∀ header ∈ response.headers, FieldOk header
  unframed : ∀ header ∈ response.headers, named "content-length" header = false ∧ named "transfer-encoding" header = false
  bodiless : bodiless response.status = true → response.body = []

private theorem phrase_plain (status : Nat) : Plain (httpStatusPhrase status).toList := by
  unfold httpStatusPhrase
  split <;> decide

private theorem listed_headers {response : HttpResponse} {header : Str × Str} :
    header ∈ response.listed ↔ header ∈ response.headers := List.mem_insertionSort _

private theorem hasHeader_unframed {response : HttpResponse} (clean : Clean response) :
    response.hasHeader "Content-Length".toList = false ∧ response.hasHeader "Transfer-Encoding".toList = false := by
  have missing : ∀ name : Str, (∀ header ∈ response.headers, header.1 ≠ name) → response.hasHeader name = false := by
    intro name other
    unfold HttpResponse.hasHeader
    rw [List.lookup_eq_none_iff.mpr]
    · rfl
    · intro header member
      exact bne_iff_ne.mpr (other header member).symm
  constructor
  all_goals
    apply missing
    intro header member same
    obtain ⟨length, coding⟩ := clean.unframed header member
    rw [named, same] at length coding
  · exact absurd length (by decide)
  · exact absurd coding (by decide)

private theorem digits_strip (n : Nat) : strip (Nat.toDigits 10 n) = Nat.toDigits 10 n := by
  have solid : ∀ text : Str, (∀ c ∈ text, isBlank c = false) → text.dropWhile isBlank = text := by
    intro text none
    cases text with
    | nil => rfl
    | cons c text => rw [List.dropWhile_cons, none c List.mem_cons_self, if_neg Bool.false_ne_true]
  have blank : ∀ c ∈ Nat.toDigits 10 n, isBlank c = false := by
    intro c member
    have digit := digits_plain n c member
    by_contra some
    simp only [isBlank, Bool.not_eq_false, Bool.or_eq_true, beq_iff_eq] at some
    rcases some with rfl | rfl
    · exact absurd digit (by decide)
    · exact absurd digit (by decide)
  unfold strip
  rw [solid _ blank, solid _ fun c member => blank c (List.mem_reverse.mp member), List.reverse_reverse]

private theorem sentAs_framed {response : HttpResponse} (clean : Clean response) (httpVersion : Str) :
    framing response.status (sentAs httpVersion response).stripped.fields = some (.sized response.body.length) := by
  obtain ⟨length, coding⟩ := hasHeader_unframed clean
  have listed : ∀ name, (∀ header ∈ response.headers, named name header = false) →
      ∀ field ∈ response.listed.map stripField, named name field = false := by
    intro name other field member
    obtain ⟨header, inside, rfl⟩ := List.mem_map.mp member
    exact other header (listed_headers.mp inside)
  have lengths := listed "content-length" fun header member => (clean.unframed header member).1
  have codings := listed "transfer-encoding" fun header member => (clean.unframed header member).2
  unfold framing
  split
  next none => rw [clean.bodiless none]; rfl
  next some =>
    have sized : response.status ≠ 204 := by
      intro same
      rw [same] at some
      exact some rfl
    have fields : (sentAs httpVersion response).stripped.fields = response.listed.map stripField ++
        [("Content-Length".toList, Nat.toDigits 10 response.body.length), ("Connection".toList, "close".toList)] := by
      have added : lengthField response = [("Content-Length".toList, Nat.toDigits 10 response.body.length)] :=
        if_pos ⟨sized, length, coding⟩
      have parts : (sentAs httpVersion response).stripped.fields =
        (response.listed ++ lengthField response ++ [("Connection".toList, "close".toList)]).map stripField := rfl
      rw [parts, added, List.append_assoc, List.map_append, List.singleton_append, List.map_cons, stripField, digits_strip]
      rfl
    have uncoded : ¬ (sentAs httpVersion response).stripped.fields.any (named "transfer-encoding") = true := by
      have none : (response.listed.map stripField).any (named "transfer-encoding") = false := by
        rw [List.any_eq_false]
        intro field member
        exact Bool.eq_false_iff.mp (codings field member)
      rw [fields, List.any_append, none, Bool.false_or]
      exact Bool.false_ne_true
    have one : (sentAs httpVersion response).stripped.fields.filter (named "content-length") =
        [("Content-Length".toList, Nat.toDigits 10 response.body.length)] := by
      have none : (response.listed.map stripField).filter (named "content-length") = [] := by
        rw [List.filter_eq_nil_iff]
        intro field member
        exact Bool.eq_false_iff.mp (lengths field member)
      rw [fields, List.filter_append, none, List.nil_append]
      rfl
    rw [if_neg uncoded, one]
    dsimp only
    rw [readNumber_digits]
    rfl

private theorem sentAs_ok {response : HttpResponse} (clean : Clean response) {httpVersion : Str}
    (version : Plain httpVersion ∧ ' ' ∉ httpVersion) : (sentAs httpVersion response).Ok where
  version := version
  reason := phrase_plain response.status
  fields := by
    have digits : Plain (Nat.toDigits 10 response.body.length) := by
      constructor
      all_goals
        intro inside
        have digit := digits_plain _ _ inside
        revert digit
        decide
    intro field member
    simp only [sentAs, List.mem_append, List.mem_singleton] at member
    rcases member with (inside | inside) | rfl
    · exact clean.fields field (listed_headers.mp inside)
    · unfold lengthField at inside
      split at inside
      next =>
        cases List.mem_singleton.mp inside
        have name : "Content-Length".toList ≠ [] ∧ Plain "Content-Length".toList := by decide
        have solid : ∀ c ∈ "Content-Length".toList, c ≠ ':' ∧ isBlank c = false := every (by decide)
        exact ⟨name.1, solid, name.2, digits⟩
      next => cases inside
    · exact ⟨by decide, every (by decide), by decide, by decide⟩
  framed := sentAs_framed clean httpVersion

/-- A reader finds the response in its wire, and leaves what follows. -/
theorem toWire_reads {response : HttpResponse} (clean : Clean response) (httpVersion : Str)
    (version : Plain httpVersion ∧ ' ' ∉ httpVersion) (rest : Str) :
    readResponse (response.toWire httpVersion ++ rest) = some ((sentAs httpVersion response).stripped, rest) := by
  rw [toWire_render]
  exact read_render (sentAs_ok clean version) rest

end DuckdbOdata.ResponseWires
