import DuckdbOdata.Foundation.Program
import DuckdbOdata.Server.HttpResponse

/-! The thread of a connection, call by call (`HandleConnection` and
`ReadRequestHead` in `server/http_server.cpp`). A loop has as fuel the number of
bytes that it can still move, since every round moves at least one. -/

namespace DuckdbOdata
open Text

/-- What `read` or `recv` with a buffer of this size returns. -/
structure Arrived (size : Nat) where
  bytes : Str
  some : bytes ≠ []
  small : bytes.length ≤ size

/-- How many of the bytes `send` accepts. -/
structure Accepted (bytes : Str) where
  count : Nat
  some : 0 < count
  small : count ≤ bytes.length

/-- `now` reads the steady clock in milliseconds. -/
inductive ConnectionCall
  | read (size : Nat)
  | handle (request : HttpRequest)
  | send (bytes : Str)
  | shutdown
  | now
  | poll
  | recv (size : Nat)
  | close
deriving DecidableEq

/-- A call that fails, times out or finds the end of the stream answers `none`;
the handler may throw. -/
def ConnectionCall.Answer : ConnectionCall → Type
  | .read size | .recv size => Option (Arrived size)
  | .handle _ => Except Thrown HttpResponse
  | .send bytes => Option (Accepted bytes)
  | .now => Nat
  | .poll => Bool
  | .shutdown | .close => Unit

abbrev ConnectionProgram := Program ConnectionCall ConnectionCall.Answer

namespace ConnectionThread

def read (size : Nat) : ConnectionProgram (Option (Arrived size)) := Program.perform (ConnectionCall.read size)

def handle (request : HttpRequest) : ConnectionProgram (Except Thrown HttpResponse) := Program.perform (ConnectionCall.handle request)

def send (bytes : Str) : ConnectionProgram (Option (Accepted bytes)) := Program.perform (ConnectionCall.send bytes)

def shutdown : ConnectionProgram Unit := Program.perform ConnectionCall.shutdown

def now : ConnectionProgram Nat := Program.perform ConnectionCall.now

def poll : ConnectionProgram Bool := Program.perform ConnectionCall.poll

def recv (size : Nat) : ConnectionProgram (Option (Arrived size)) := Program.perform (ConnectionCall.recv size)

def close : ConnectionProgram Unit := Program.perform ConnectionCall.close

/-- The head with its blank line and the start of the body. -/
def readRequestHead : Nat → Str → ConnectionProgram (Option (Str × Str))
  | 0, _ => return none
  | fuel + 1, buffer => do
    match ← read 4096 with
    | none => return none
    | some chunk =>
      match cutText blankLine (buffer ++ chunk.bytes) with
      | some (lines, body) => return if 65536 < lines.length then none else some (lines ++ blankLine, body)
      | none => if 65536 < (buffer ++ chunk.bytes).length then return none else readRequestHead fuel (buffer ++ chunk.bytes)

def readBody (length : Nat) : Nat → Str → ConnectionProgram (Option Str)
  | 0, body => return if length ≤ body.length then some body else none
  | fuel + 1, body =>
    if length ≤ body.length then return some body
    else do
      match ← read (min 4096 (length - body.length)) with
      | none => return none
      | some chunk => readBody length fuel (body ++ chunk.bytes)

def receiveBody (request : HttpRequest) (body : Str) : ConnectionProgram HttpResponse :=
  let (valid, length) := bodyFraming request
  if 1048576 < length then return payloadTooLarge
  else if valid = false then return invalidFraming
  else do
    match ← readBody length (length - body.length) body with
    | none => return invalidFraming
    | some body => return answered (← handle { request with body := body.take length })

def receiveRequest : ConnectionProgram HttpResponse := do
  match ← readRequestHead 65537 [] with
  | none => return invalidHeader
  | some (head, body) =>
    match parseHttpRequest head with
    | none => return invalidHeader
    | some request => receiveBody request body

def sendAll : Nat → Str → ConnectionProgram Unit
  | 0, _ => return ()
  | fuel + 1, remaining =>
    if remaining = [] then return ()
    else do
      match ← send remaining with
      | none => return ()
      | some accepted => sendAll fuel (remaining.drop accepted.count)

def drain (deadline : Nat) : Nat → Nat → ConnectionProgram Unit
  | 0, _ => return ()
  | fuel + 1, drained =>
    if 8 * 1048576 ≤ drained then return ()
    else do
      if deadline ≤ (← now) then return ()
      else if (← poll) = false then return ()
      else match ← recv 8192 with
        | none => return ()
        | some discarded => drain deadline fuel (drained + discarded.bytes.length)

/-- Delivers a rejection before a socket with unread data is closed. -/
def linger (response : HttpResponse) : ConnectionProgram Unit :=
  if response.status = 413 then do
    shutdown
    drain ((← now) + 1000) (8 * 1048576) 0
  else return ()

def deliver (response : HttpResponse) : ConnectionProgram Unit := do
  sendAll response.toWire.length response.toWire
  linger response
  close

end ConnectionThread

def handleConnection : ConnectionProgram Unit := do
  ConnectionThread.deliver (withContentType (← ConnectionThread.receiveRequest))

end DuckdbOdata
