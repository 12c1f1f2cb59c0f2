import AccountService.Http.Message
import AccountService.Pipeline.Error
import AccountService.Pipeline.Log
import AccountService.Pipeline.Metrics
import AccountService.Pipeline.Shutdown
import AccountService.Uuid

/-!
# Exchanges

An exchange is what happens between a request and its answer. Handlers act on the state of
the service, on the status recorded for the request, and on the log; they end with an answer,
an error or a panic.

## Main definitions

* `Pipeline.Site` — what outlives a request
* `Pipeline.Exchange` — the state during a request
* `Pipeline.Action` — what a handler does
* `Pipeline.Request`, `Pipeline.Context` — a request on its way through the pipeline
* `Pipeline.Handler`, `Pipeline.Layer`, `Pipeline.compose` — handlers and what wraps them
* `Pipeline.answer`, `Pipeline.respond` — the usual answer
-/

namespace AccountService.Pipeline

open Http

/-! ### State -/

/-- What outlives a request: the metrics, the shutdown signal, randomness, and whatever the
handlers of the service keep. -/
structure Site (σ : Type) where
  metrics : Metrics
  /-- Whether the service has been asked to stop. -/
  signalled : Bool
  entropy : Entropy
  world : σ

/-- The state during a request. -/
structure Exchange (σ : Type) extends Site σ where
  /-- What the clock reads. -/
  clock : Instant
  /-- The status recorded for the answer. -/
  status : Option Status
  /-- The events so far, last first. -/
  logged : List Log.Event

/-- What a handler does: it changes the state and ends with a result or a failure. -/
abbrev Action (σ : Type) := ExceptT Failure (StateM (Exchange σ))

/-- Fails with an error. -/
def fail {σ α : Type} (e : Error) : Action σ α := throw (.error e)

/-- Ends abruptly. -/
def panic {σ α : Type} (p : Panic) : Action σ α := throw (.panic p)

/-- Leaves an event in the log. -/
def log {σ : Type} (e : Log.Event) : Action σ Unit :=
  modify fun x => { x with logged := e :: x.logged }

/-- Changes the metrics. -/
def count {σ : Type} (f : Metrics → Metrics) : Action σ Unit :=
  modify fun x => { x with metrics := f x.metrics }

/-- Records the status of the answer. -/
def recordStatus {σ : Type} (s : Status) : Action σ Unit :=
  modify fun x => { x with status := some s }

/-- The result of an action or the error that it fails with. A panic is passed on. -/
def attempt {σ α : Type} (a : Action σ α) : Action σ (Except Error α) :=
  tryCatch (Except.ok <$> a) fun
    | .error e => pure (.error e)
    | .panic p => panic p

/-- Asks the service to stop. Only the first time is worth an event. -/
def signalShutdown {σ : Type} : Action σ Unit := do
  if !(← get).signalled then
    modify fun x => { x with signalled := true }
    log Shutdown.warning

/-! ### Requests -/

/-- What a request is known by. -/
structure Context where
  traceId : Uuid
  /-- When the request began. -/
  now : Instant
  deriving DecidableEq, Repr, Inhabited

/-- The parameters that a route took from the path. -/
inductive PathParams where
  /-- The request came by no route. -/
  | unrouted
  /-- A parameter is no text. -/
  | unreadable
  /-- The parameters by name. -/
  | read (params : List (String × String))
  deriving DecidableEq, Repr

/-- A request on its way through the pipeline. -/
structure Request where
  incoming : Incoming
  params : PathParams
  /-- What the request is known by, once it has begun. -/
  context : Option Context
  /-- Whether the request carries the metrics of the pipeline. -/
  metered : Bool
  /-- Who sends the request, once that is known. -/
  claims : Option Auth.Claims

/-- The refusal of a request that has not begun. -/
def noContext : Error := .shutdown "web value missing from context"

/-- What a request is known by. A request that has not begun means that the pipeline is put
together wrong. -/
def Request.getContext {σ : Type} (r : Request) : Action σ Context :=
  match r.context with
  | some c => pure c
  | none => fail noContext

/-- The identifier of a request for the log. -/
def Request.traceId (r : Request) : String := ((r.context.map (·.traceId)).getD Uuid.nil).text

/-! ### Handlers -/

/-- What answers requests. -/
abbrev Handler (σ : Type) := Request → Action σ Response

/-- What wraps a handler. -/
abbrev Layer (σ : Type) := Handler σ → Handler σ

/-- A handler inside layers; the first layer is the outermost. -/
def compose {σ : Type} (layers : List (Layer σ)) (handler : Handler σ) : Handler σ :=
  layers.foldr (fun layer next => layer next) handler

/-- The answer that carries a value in JSON. A value that has no JSON form is an internal error,
and an answer without content has no body. -/
def answer (data : Option Json) (status : Status) : Except Error Response :=
  if status = .noContent then .ok (.ofStatus status)
  else
    match data with
    | some v => .ok ⟨status, [("content-type", "application/json")], v.render⟩
    | none => .error (.internal "encoding response" ["the value has no JSON form"])

/-- Answers with a value in JSON and records the status. -/
def respond {σ : Type} (data : Option Json) (status : Status) : Action σ Response := do
  recordStatus status
  match answer data status with
  | .ok response => return response
  | .error e => fail e

@[simp] theorem compose_nil {σ : Type} (h : Handler σ) : compose [] h = h := rfl

@[simp] theorem compose_cons {σ : Type} (l : Layer σ) (ls : List (Layer σ)) (h : Handler σ) :
    compose (l :: ls) h = l (compose ls h) := rfl

theorem compose_append {σ : Type} (ls ms : List (Layer σ)) (h : Handler σ) :
    compose (ls ++ ms) h = compose ls (compose ms h) := List.foldr_append

end AccountService.Pipeline
