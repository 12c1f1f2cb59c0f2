import AccountService.Text.Utf8
import AccountService.Text.Case

/-!
# HTTP messages

What a client sends and what it gets back, as far as the service looks at it.

## Main definitions

* `Http.Status` — a status code
* `Http.Header`, `Http.firstHeader?` — a received header and the one that counts
* `Http.isHeaderValue` — the texts that a header of an answer can carry
* `Http.Incoming` — a request as it arrives
* `Http.Response`, `Http.Response.sentFor` — an answer, and what is sent of it
-/

namespace AccountService.Http

/-- A status code. -/
structure Status where
  code : Nat
  deriving DecidableEq, Repr, Inhabited

namespace Status

def ok : Status := ⟨200⟩
def created : Status := ⟨201⟩
def noContent : Status := ⟨204⟩
def badRequest : Status := ⟨400⟩
def unauthorized : Status := ⟨401⟩
def forbidden : Status := ⟨403⟩
def notFound : Status := ⟨404⟩
def methodNotAllowed : Status := ⟨405⟩
def conflict : Status := ⟨409⟩
def internalError : Status := ⟨500⟩

/-- Whether a status blames the service. -/
def isServerError (s : Status) : Bool := 500 ≤ s.code && s.code ≤ 599

/-- Whether a status reports success. -/
def isSuccess (s : Status) : Bool := 200 ≤ s.code && s.code ≤ 299

/-- The name that an error of this status goes by. -/
def errorCode (s : Status) : String :=
  if s = badRequest then "bad_request"
  else if s = unauthorized then "unauthorized"
  else if s = forbidden then "forbidden"
  else if s = notFound then "not_found"
  else if s = conflict then "conflict"
  else if s.isServerError then "internal_error"
  else "request_error"

end Status

/-- A received header. -/
structure Header where
  name : String
  value : Octets
  deriving DecidableEq, Repr

/-- Whether a text can be the value of a header: it has no control character but tabs. -/
def isHeaderValue (s : String) : Bool :=
  s.toList.all fun c => c == '\t' || (decide (0x20 ≤ c.toNat) && c.toNat != 0x7F)

/-- The value of the first header of a name, whatever its case. -/
def firstHeader? (name : String) (headers : List Header) : Option Octets :=
  (headers.find? fun h => Text.eqIgnoringCase h.name name).map (·.value)

/-- A request as it arrives. -/
structure Incoming where
  method : String
  /-- The path as sent, without a query. -/
  path : String
  headers : List Header
  body : Octets
  /-- The address of the client, where it is known. -/
  remote : Option String
  deriving Repr

/-- An answer. Its headers are in the order in which they were set; lengths are left to the
connection. -/
structure Response where
  status : Status
  headers : List (String × String)
  body : String
  deriving DecidableEq, Repr, Inhabited

namespace Response

/-- An answer that is a status alone. -/
def ofStatus (s : Status) : Response := ⟨s, [], ""⟩

/-- An answer without its body. -/
def withoutBody (r : Response) : Response := { r with body := "" }

/-- An answer as it is sent for a method. `HEAD` asks for the headers alone, and what follows a
successful `CONNECT` is a tunnel and no body. -/
def sentFor (method : String) (r : Response) : Response :=
  if method = "HEAD" ∨ method = "CONNECT" ∧ r.status.isSuccess then r.withoutBody else r

end Response

end AccountService.Http
