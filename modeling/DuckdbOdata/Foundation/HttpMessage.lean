import DuckdbOdata.Foundation.TextSearch

/-! HTTP/1.1 responses as a client reads them: a status line, header fields up to
an empty line, and a body whose length follows from status and fields. A single
line feed also ends a line, so that no reader sees more lines than this one. -/

namespace HttpMessage
open Text

structure Response where
  version : Str
  status : Nat
  reason : Str
  fields : List (Str × Str)
  body : Str
deriving DecidableEq

/-- A line without the carriage return of its end. -/
def endLine (line : Str) : Str := if line.getLast? = some '\r' then line.dropLast else line

/-- The lines up to the first empty one, and what follows it. `line` is what has
been read of the current line. -/
def readLines (line : Str) : Str → Option (List Str × Str)
  | [] => none
  | c :: rest =>
    if c = '\n' then
      if endLine line = [] then some ([], rest)
      else (readLines [] rest).map fun (lines, after) => (endLine line :: lines, after)
    else readLines (line ++ [c]) rest

def isBlank (c : Char) : Bool := c == ' ' || c == '\t'

/-- A field value without the blanks around it. -/
def strip (value : Str) : Str := ((value.dropWhile isBlank).reverse.dropWhile isBlank).reverse

def readStatusLine (line : Str) : Option (Str × Nat × Str) := do
  let (version, rest) ← cut ' ' line
  let (code, reason) ← cut ' ' rest
  let status ← readNumber code
  return (version, status, reason)

/-- A name without blanks before the colon, and the value after it. -/
def readField (line : Str) : Option (Str × Str) := do
  let (name, value) ← cut ':' line
  if name = [] ∨ name.any isBlank then none else some (name, strip value)

def named (name : String) (field : Str × Str) : Bool := field.1.map Char.toLower == name.toList

/-- Statuses whose responses never have a body. -/
def bodiless (status : Nat) : Bool := status / 100 == 1 || status == 204 || status == 304

/-- How the end of a body is known. -/
inductive Framing
  | sized (length : Nat)
  | untilClose
deriving DecidableEq

/-- Several lengths, or a length that is no number, make a response invalid; so
does a coding that this reader does not know. -/
def framing (status : Nat) (fields : List (Str × Str)) : Option Framing :=
  if bodiless status then some (.sized 0)
  else if fields.any (named "transfer-encoding") then none
  else match fields.filter (named "content-length") with
    | [] => some .untilClose
    | [field] => (readNumber field.2).map .sized
    | _ => none

/-- The body and what is left of the stream. -/
def takeBody (stream : Str) : Framing → Option (Str × Str)
  | .sized length => if length ≤ stream.length then some (stream.take length, stream.drop length) else none
  | .untilClose => some (stream, [])

def readResponse (stream : Str) : Option (Response × Str) := do
  let (lines, rest) ← readLines [] stream
  let start ← lines.head?
  let (version, status, reason) ← readStatusLine start
  let fields ← lines.tail.mapM readField
  let length ← framing status fields
  let (body, after) ← takeBody rest length
  return (⟨version, status, reason, fields, body⟩, after)

def renderField (field : Str × Str) : Str := field.1 ++ ": ".toList ++ field.2

def Response.lines (response : Response) : List Str :=
  (response.version ++ ' ' :: (Nat.toDigits 10 response.status ++ ' ' :: response.reason)) :: response.fields.map renderField

def Response.render (response : Response) : Str :=
  (response.lines.flatMap fun line => line ++ "\r\n".toList) ++ "\r\n".toList ++ response.body

/-- No character that could end a line. -/
def Plain (text : Str) : Prop := '\r' ∉ text ∧ '\n' ∉ text

instance (text : Str) : Decidable (Plain text) := inferInstanceAs (Decidable (_ ∧ _))

theorem Plain.append {first last : Str} (one : Plain first) (other : Plain last) : Plain (first ++ last) :=
  ⟨by simp [one.1, other.1], by simp [one.2, other.2]⟩

theorem Plain.cons {c : Char} {text : Str} (plain : Plain text) (first : c ≠ '\r' ∧ c ≠ '\n') : Plain (c :: text) :=
  ⟨by simp [plain.1, first.1.symm], by simp [plain.2, first.2.symm]⟩

theorem Plain.flatMap {text : Str} {encode : Char → Str} (each : ∀ c ∈ text, Plain (encode c)) : Plain (text.flatMap encode) := by
  constructor
  all_goals
    intro inside
    obtain ⟨c, member, found⟩ := List.mem_flatMap.mp inside
  · exact (each c member).1 found
  · exact (each c member).2 found

theorem endLine_return (line : Str) : endLine (line ++ ['\r']) = line := by
  simp [endLine]

theorem readLines_line {text : Str} (plain : '\n' ∉ text) (line rest : Str) :
    readLines line (text ++ '\n' :: rest) =
      if endLine (line ++ text) = [] then some ([], rest)
      else (readLines [] rest).map fun (lines, after) => (endLine (line ++ text) :: lines, after) := by
  induction text generalizing line with
  | nil => simp [readLines]
  | cons c text ih =>
    simp only [List.mem_cons, not_or] at plain
    rw [List.cons_append, readLines, if_neg fun same => plain.1 same.symm, ih plain.2, List.append_assoc, List.singleton_append]

private theorem readLines_ended {line : Str} (plain : Plain line) (rest : Str) :
    readLines [] (line ++ "\r\n".toList ++ rest) =
      if line = [] then some ([], rest) else (readLines [] rest).map fun (lines, after) => (line :: lines, after) := by
  have free : '\n' ∉ line ++ ['\r'] := by
    simp [plain.2]
  have whole : line ++ "\r\n".toList ++ rest = (line ++ ['\r']) ++ '\n' :: rest := by
    simp
  rw [whole, readLines_line free, List.nil_append, endLine_return]

/-- Lines are read back up to the empty one. -/
theorem readLines_all {lines : List Str} (each : ∀ line ∈ lines, Plain line ∧ line ≠ []) (rest : Str) :
    readLines [] ((lines.flatMap fun line => line ++ "\r\n".toList) ++ "\r\n".toList ++ rest) = some (lines, rest) := by
  induction lines with
  | nil =>
    have empty := @readLines_ended [] ⟨List.not_mem_nil, List.not_mem_nil⟩ rest
    simpa using empty
  | cons line lines ih =>
    obtain ⟨plain, some⟩ := each line List.mem_cons_self
    have later := ih fun other member => each other (List.mem_cons_of_mem _ member)
    have first := readLines_ended plain ((lines.flatMap fun line => line ++ "\r\n".toList) ++ "\r\n".toList ++ rest)
    rw [later, if_neg some] at first
    simpa using first

/-- A field that stays one line with one name. -/
structure FieldOk (field : Str × Str) : Prop where
  some : field.1 ≠ []
  name : ∀ c ∈ field.1, c ≠ ':' ∧ isBlank c = false
  plain : Plain field.1 ∧ Plain field.2

/-- Blanks around the value are no part of it. -/
def stripField (field : Str × Str) : Str × Str := (field.1, strip field.2)

theorem readField_render {field : Str × Str} (ok : FieldOk field) : readField (renderField field) = .some (stripField field) := by
  have free : ':' ∉ field.1 := fun member => (ok.name _ member).1 rfl
  have solid : ∀ c ∈ field.1, isBlank c = false := fun c member => (ok.name c member).2
  have whole : renderField field = field.1 ++ ':' :: ' ' :: field.2 := by
    simp [renderField]
  have blank : strip (' ' :: field.2) = strip field.2 := by
    have first : isBlank ' ' = true := rfl
    unfold strip
    rw [List.dropWhile_cons, if_pos first]
  unfold readField
  rw [whole, cut_first free]
  simpa [ok.some, blank, stripField] using solid

private theorem readFields_render {fields : List (Str × Str)} (ok : ∀ field ∈ fields, FieldOk field) :
    (fields.map renderField).mapM readField = some (fields.map stripField) := by
  induction fields with
  | nil => rfl
  | cons field fields ih =>
    rw [List.map_cons, List.mapM_cons, readField_render (ok field List.mem_cons_self),
      ih fun other member => ok other (List.mem_cons_of_mem _ member)]
    rfl

/-- The response with its field values as a reader has them. -/
def Response.stripped (response : Response) : Response := { response with fields := response.fields.map stripField }

/-- A response that reads as it was meant. -/
structure Response.Ok (response : Response) : Prop where
  version : Plain response.version ∧ ' ' ∉ response.version
  reason : Plain response.reason
  fields : ∀ field ∈ response.fields, FieldOk field
  framed : framing response.status response.stripped.fields = some (.sized response.body.length)

theorem readStatusLine_render {response : Response} (ok : response.Ok) :
    readStatusLine (response.version ++ ' ' :: (Nat.toDigits 10 response.status ++ ' ' :: response.reason)) =
      some (response.version, response.status, response.reason) := by
  have free : ' ' ∉ Nat.toDigits 10 response.status := by
    intro member
    have digit := digits_plain _ _ member
    revert digit
    decide
  unfold readStatusLine
  rw [cut_first ok.version.2]
  simp only [Option.bind_eq_bind, Option.bind_some]
  rw [cut_first free]
  simp [readNumber_digits]

private theorem lines_plain {response : Response} (ok : response.Ok) : ∀ line ∈ response.lines, Plain line ∧ line ≠ [] := by
  intro line member
  rcases List.mem_cons.mp member with rfl | inside
  · have digits : Plain (Nat.toDigits 10 response.status) := by
      constructor
      all_goals
        intro inside
        have digit := digits_plain _ _ inside
        revert digit
        decide
    refine ⟨ok.version.1.append (Plain.cons (digits.append (Plain.cons ok.reason (by decide))) (by decide)), ?_⟩
    simp
  · obtain ⟨field, listed, rfl⟩ := List.mem_map.mp inside
    have field := ok.fields field listed
    refine ⟨(field.plain.1.append (by decide)).append field.plain.2, ?_⟩
    simp [renderField]

/-- Reading undoes rendering, and what follows the response is left over. -/
theorem read_render {response : Response} (ok : response.Ok) (rest : Str) :
    readResponse (response.render ++ rest) = some (response.stripped, rest) := by
  have whole : response.render ++ rest =
      (response.lines.flatMap fun line => line ++ "\r\n".toList) ++ "\r\n".toList ++ (response.body ++ rest) := by
    simp [Response.render]
  have start : response.lines.head? =
    some (response.version ++ ' ' :: (Nat.toDigits 10 response.status ++ ' ' :: response.reason)) := rfl
  have tail : response.lines.tail = response.fields.map renderField := rfl
  have framed : framing response.status (response.fields.map stripField) = some (.sized response.body.length) := ok.framed
  unfold readResponse
  rw [whole, readLines_all (lines_plain ok)]
  simp only [Option.bind_eq_bind, Option.bind_some]
  rw [start]
  simp only [Option.bind_some]
  rw [readStatusLine_render ok, tail, readFields_render ok.fields]
  simp only [Option.bind_some]
  rw [framed]
  simp [takeBody, Response.stripped]

end HttpMessage
