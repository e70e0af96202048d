import DuckdbOdata.Common.StringUtil

/-! HTTP requests, their parser, and responses (`server/http_request.cpp`,
`server/http_response.cpp`). -/

namespace DuckdbOdata
open Text

structure HttpRequest where
  method : Str := []
  path : Str := []
  rawQuery : Str := []
  body : Str := []
  query : List (Str × Str) := []
  headers : List (Str × Str) := []
deriving DecidableEq

def HttpRequest.header? (request : HttpRequest) (name : Str) : Option Str := request.headers.lookup (toLower name)

def HttpRequest.hasHeader (request : HttpRequest) (name : Str) : Bool := (request.header? name).isSome

def HttpRequest.getHeader (request : HttpRequest) (name : Str) : Str := (request.header? name).getD []

/-- `headers[name] = value` -/
def setHeader (name value : Str) (headers : List (Str × Str)) : List (Str × Str) :=
  (name, value) :: headers.filter (·.1 ≠ name)

/-- The lines that end in CRLF; a last line without it is dropped. -/
def crlfLines : Str → List Str
  | [] => []
  | '\r' :: '\n' :: rest => [] :: crlfLines rest
  | c :: rest =>
    match crlfLines rest with
    | [] => []
    | line :: lines => (c :: line) :: lines

/-- The words that `operator>>` extracts. -/
def words : Str → List Str
  | [] => []
  | c :: rest =>
    if isSpace c then words rest
    else match rest with
      | [] => [[c]]
      | d :: _ =>
        if isSpace d then [c] :: words rest
        else match words rest with
          | [] => [[c]]
          | word :: others => (c :: word) :: others

def isTab (c : Char) : Bool := c == ' ' || c == '\t'

def trimTabs (value : Str) : Str := ((value.dropWhile isTab).reverse.dropWhile isTab).reverse

/-- One header line, or `none` if the head is malformed. -/
def parseHeader (headers : List (Str × Str)) (line : Str) : Option (List (Str × Str)) :=
  match cut ':' line with
  | none => none
  | some (name, value) =>
    if name = [] ∨ name.any isTab then none
    else if toLower name = "content-length".toList ∧ (headers.lookup (toLower name)).isSome then none
    else some (setHeader (toLower name) (trimTabs value) headers)

/-- Header lines up to the first empty one. -/
def parseHeaders (lines : List Str) : Option (List (Str × Str)) :=
  (lines.takeWhile (· ≠ [])).foldlM parseHeader []

/-- The request with its path and query taken from the target. -/
def requestOf (method target : Str) (headers : List (Str × Str)) : HttpRequest :=
  match cut '?' target with
  | none => { method, path := urlDecode target, headers }
  | some (path, rawQuery) =>
    { method, path := urlDecode path, rawQuery, query := parseQueryString rawQuery, headers }

def parseHttpRequest (head : Str) : Option HttpRequest :=
  match crlfLines head with
  | [] => none
  | requestLine :: lines =>
    match words requestLine with
    | [method, target, version] =>
      if version = "HTTP/1.1".toList ∨ version = "HTTP/1.0".toList then
        (parseHeaders lines).map (requestOf method target)
      else none
    | _ => none

structure HttpResponse where
  status : Nat := 200
  headers : List (Str × Str) := []
  body : Str := []
deriving DecidableEq

end DuckdbOdata
