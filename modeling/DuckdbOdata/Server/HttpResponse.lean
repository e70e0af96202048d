import DuckdbOdata.Server.HttpServer
import Mathlib.Data.Char
import Mathlib.Data.List.Lex
import Mathlib.Data.List.Sort

/-! The bytes of a response (`server/http_response.cpp`), and the responses that a
connection thread adds to those of the handler (`server/http_server.cpp`). -/

namespace DuckdbOdata
open Text

def httpStatusPhrase : Nat → String
  | 200 => "OK"
  | 201 => "Created"
  | 204 => "No Content"
  | 304 => "Not Modified"
  | 400 => "Bad Request"
  | 401 => "Unauthorized"
  | 403 => "Forbidden"
  | 404 => "Not Found"
  | 405 => "Method Not Allowed"
  | 406 => "Not Acceptable"
  | 409 => "Conflict"
  | 412 => "Precondition Failed"
  | 413 => "Payload Too Large"
  | 415 => "Unsupported Media Type"
  | 500 => "Internal Server Error"
  | 503 => "Service Unavailable"
  | 501 => "Not Implemented"
  | _ => "Unknown"

def HttpResponse.hasHeader (response : HttpResponse) (name : Str) : Bool := (response.headers.lookup name).isSome

/-- The headers as a `std::map` lists them: by their names, byte by byte. -/
def HttpResponse.listed (response : HttpResponse) : List (Str × Str) :=
  response.headers.insertionSort fun first last => first.1 ≤ last.1

def headerLine (header : Str × Str) : Str := header.1 ++ ": ".toList ++ header.2 ++ "\r\n".toList

def HttpResponse.toWire (response : HttpResponse) (httpVersion : Str := "HTTP/1.1".toList) : Str :=
  httpVersion ++ " ".toList ++ intText response.status ++ " ".toList ++ (httpStatusPhrase response.status).toList ++ "\r\n".toList ++
    response.listed.flatMap headerLine ++
    (if response.status ≠ 204 ∧ response.hasHeader "Content-Length".toList = false ∧
        response.hasHeader "Transfer-Encoding".toList = false then
      "Content-Length: ".toList ++ intText response.body.length ++ "\r\n".toList
    else []) ++
    "Connection: close\r\n".toList ++ "\r\n".toList ++ response.body

/-- `ex.what()` -/
def Exn.what : Exn → Str
  | .odataParse message => message
  | .invalidArgument what | .outOfRange what | .duckdb what => what
  | .undefined => []

/-- What the handler throws: a `std::exception`, or anything else. -/
inductive Thrown
  | exception (failure : Exn)
  | other

def Thrown.message : Thrown → Str
  | .exception failure => jsonEscape failure.what
  | .other => "internal error".toList

/-- Nothing that the handler throws leaves the thread. -/
def answered (result : Except Thrown HttpResponse) : HttpResponse :=
  match result with
  | .ok response => response
  | .error thrown =>
    { status := 500
      headers := [("Content-Type".toList, "application/json".toList)]
      body := "\x7b\"error\":\x7b\"code\":\"500\",\"message\":\"".toList ++ thrown.message ++ "\"\x7d\x7d".toList }

/-- The default for a missing `Content-Type`. -/
def withContentType (response : HttpResponse) : HttpResponse :=
  if response.hasHeader "Content-Type".toList then response
  else
    let type := if 400 ≤ response.status then "application/json" else "text/plain"
    { response with headers := setHeader "Content-Type".toList type.toList response.headers }

end DuckdbOdata
