import AccountService.Auth.Access

/-!
# Errors of the request pipeline

What can go wrong between a request and its answer. Only errors meant for the caller are
shown. Errors that put the service's invariants in doubt stop the service.

## Main definitions

* `Pipeline.Error` — what a handler or a layer can fail with
* `Pipeline.Error.isFatal` — the errors that stop the service
* `Pipeline.Panic` — an abrupt end, with what was thrown
* `Pipeline.Failure` — either of them
-/

namespace AccountService.Pipeline

open Http

/-- What a handler or a layer can fail with. -/
inductive Error where
  /-- Shown to the caller as it is. -/
  | request (e : RequestError)
  /-- Logged, and answered without detail; the causes follow outermost first. -/
  | internal (message : String) (causes : List String)
  /-- The service must stop. -/
  | shutdown (message : String)
  /-- A panic was recovered; `located` says whether the place it came from was recorded. -/
  | panic (message : String) (located : Bool)
  /-- A route could not be registered. -/
  | route (message : String)
  deriving DecidableEq, Repr

namespace Error

/-- The wording of an error. Of an internal error only the outermost message is told. -/
def message : Error → String
  | request e => e.message
  | internal message _ => message
  | shutdown message => message
  | panic message _ => "PANIC [" ++ message ++ "]"
  | route message => "registering route: " ++ message

/-- Whether an error stops the service. -/
def isFatal : Error → Bool
  | shutdown _ => true
  | panic _ _ => true
  | _ => false

/-- A refusal by authentication, as the caller sees it. -/
def ofAuth (e : Auth.Error) : Error := request e.toRequest

/-- A refusal by an access decision, as the caller sees it. -/
def ofForbidden (f : Auth.Forbidden) : Error := request f.toRequest

end Error

/-- What was thrown in a panic. -/
inductive Panic where
  | text (s : String)
  /-- Something that is no text. -/
  | other
  deriving DecidableEq, Repr

/-- The wording of a panic. -/
def Panic.message : Panic → String
  | .text s => s
  | .other => "unknown panic payload"

/-- How an action can end without a result. -/
inductive Failure where
  | error (e : Error)
  | panic (p : Panic)
  deriving DecidableEq, Repr

end AccountService.Pipeline
