import DuckdbOdata.Foundation.TextSearch
import DuckdbOdata.Server.HttpRequest

/-! Reading one request from a connection (`server/http_server.cpp`,
`ReadRequestHead` and `HandleConnection`). -/

namespace DuckdbOdata
open Text

/-- What one `read` with a buffer of 4096 bytes returns. -/
structure Segment where
  bytes : Str
  some : bytes ≠ []
  small : bytes.length ≤ 4096

/-- The bytes in the order in which they arrive; after them the stream ends or the
next `read` times out. -/
def streamOf (segments : List Segment) : Str := segments.flatMap (·.bytes)

def blankLine : Str := "\r\n\r\n".toList

/-- The head with its blank line, the start of the body, and what is still to
arrive; `none` if the stream ends early or the head is too long. -/
def readRequestHead : Str → List Segment → Option (Str × Str × List Segment)
  | _, [] => none
  | buffer, chunk :: rest =>
    match cutText blankLine (buffer ++ chunk.bytes) with
    | some (lines, body) => if 65536 < lines.length then none else some (lines ++ blankLine, body, rest)
    | none => if 65536 < (buffer ++ chunk.bytes).length then none else readRequestHead (buffer ++ chunk.bytes) rest

/-- The loop that reads the rest of the body: never more than is missing. -/
def readBody (length : Nat) : Str → List Segment → Option Str
  | body, [] => if length ≤ body.length then some body else none
  | body, chunk :: rest =>
    if length ≤ body.length then some body else readBody length (body ++ chunk.bytes.take (length - body.length)) rest

/-- The loop over the digits of `Content-Length`: whether it is valid, and the
length so far. -/
def contentLength : Bool → Nat → Str → Bool × Nat
  | valid, length, [] => (valid, length)
  | valid, length, c :: rest =>
    if c < '0' ∨ '9' < c ∨ 1048576 < length then (false, length)
    else contentLength valid (length * 10 + (c.toNat - '0'.toNat)) rest

/-- Validity and length of the body's framing; chunked bodies are not supported. -/
def bodyFraming (request : HttpRequest) : Bool × Nat :=
  let raw := request.getHeader "Content-Length".toList
  let valid := !request.hasHeader "Transfer-Encoding".toList && !(request.hasHeader "Content-Length".toList && raw = [])
  contentLength valid 0 raw

def connectionError (status : Nat) (code message : String) : HttpResponse where
  status := status
  body := "\x7b\"error\":\x7b\"code\":\"".toList ++ code.toList ++ "\",\"message\":\"".toList ++ message.toList ++ "\"\x7d\x7d".toList

def invalidHeader : HttpResponse := connectionError 400 "InvalidRequest" "invalid request header"

def payloadTooLarge : HttpResponse := connectionError 413 "PayloadTooLarge" "request body exceeds 1 MiB"

def invalidFraming : HttpResponse := connectionError 400 "InvalidRequest" "invalid or unsupported body framing"

/-- What becomes of a connection: a rejection, or a request for the handler. -/
inductive Received
  | rejected (response : HttpResponse)
  | handled (request : HttpRequest)
deriving DecidableEq

/-- From a parsed head on. -/
def receiveBody (request : HttpRequest) (body : Str) (rest : List Segment) : Received :=
  let (valid, length) := bodyFraming request
  if 1048576 < length then .rejected payloadTooLarge
  else if valid = false then .rejected invalidFraming
  else match readBody length body rest with
    | none => .rejected invalidFraming
    | some body => .handled { request with body := body.take length }

def receive (segments : List Segment) : Received :=
  match readRequestHead [] segments with
  | none => .rejected invalidHeader
  | some (head, body, rest) =>
    match parseHttpRequest head with
    | none => .rejected invalidHeader
    | some request => receiveBody request body rest

end DuckdbOdata
