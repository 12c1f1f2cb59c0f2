import AccountService.Http.Message
import AccountService.Json.Basic

/-!
# Errors that are shown to the caller

An error of this kind is the caller's to see: its message is sent back word for word. The
problems of single fields of a payload travel along as a JSON text inside the JSON body.

## Main definitions

* `Http.FieldError` — a problem with one field
* `Http.FieldError.push` — records one more problem
* `Http.RequestError` — an error that is shown to the caller
* `Http.RequestError.response` — the answer that shows it
* `Http.internalErrorResponse` — the answer that shows nothing
-/

namespace AccountService.Http

/-- A problem with one field of a payload. -/
structure FieldError where
  field : String
  error : String
  deriving DecidableEq, Repr

/-- Records one more problem, after those recorded before. -/
def FieldError.push (fields : List FieldError) (field error : String) : List FieldError :=
  fields ++ [⟨field, error⟩]

/-- The value that a list of field problems is sent as. -/
def fieldErrorsJson (fields : List FieldError) : Json :=
  .list (fields.map fun f => .record [("field", .text f.field), ("error", .text f.error)])

/-- The JSON text of a list of field problems. -/
def fieldErrorsText (fields : List FieldError) : String := (fieldErrorsJson fields).render

/-- An error that is shown to the caller. -/
structure RequestError where
  status : Status
  /-- The name of the kind of error, sent in a header. -/
  code : String
  message : String
  /-- The problems of single fields, where the payload was read but not accepted. -/
  fields : Option (List FieldError)
  deriving DecidableEq, Repr

namespace RequestError

/-- An error of a status, named by it. -/
def ofStatus (status : Status) (message : String) : RequestError :=
  ⟨status, status.errorCode, message, none⟩

def badRequest (message : String) : RequestError := ofStatus .badRequest message
def unauthorized (message : String) : RequestError := ofStatus .unauthorized message
def forbidden (message : String) : RequestError := ofStatus .forbidden message
def notFound (message : String) : RequestError := ofStatus .notFound message
def conflict (message : String) : RequestError := ofStatus .conflict message

/-- A payload whose fields are not acceptable. -/
def validation (fields : List FieldError) : RequestError :=
  ⟨.badRequest, "validation", "data validation error", some fields⟩

/-- The value that an error is sent as. -/
def bodyJson (e : RequestError) : Json :=
  .record <| ("error", .text e.message) ::
    match e.fields with
    | none => []
    | some fields => [("fields", .text (fieldErrorsText fields))]

/-- The body of the answer. -/
def body (e : RequestError) : String := e.bodyJson.render

/-- The headers of the answer. A code that no header can carry is left out. -/
def headers (e : RequestError) : List (String × String) :=
  ("content-type", "application/json") ::
    if isHeaderValue e.code then [("x-error-code", e.code)] else []

/-- The answer that shows an error. -/
def response (e : RequestError) : Response := ⟨e.status, e.headers, e.body⟩

/-- The name of a status can be carried by a header. -/
theorem isHeaderValue_errorCode (status : Status) : isHeaderValue status.errorCode = true := by
  rw [Status.errorCode]
  repeat' split
  all_goals rfl

end RequestError

/-- What validation of a payload comes to: nothing recorded is success. -/
def validated (fields : List FieldError) : Except RequestError Unit :=
  if fields.isEmpty then .ok () else .error (.validation fields)

/-- The answer to an error that must not be shown: it is the same for all of them. -/
def internalErrorResponse : Response :=
  ⟨.internalError, [("content-type", "application/json"), ("x-error-code", "internal_error")],
    (Json.record [("error", .text "Internal Server Error")]).render⟩

end AccountService.Http
