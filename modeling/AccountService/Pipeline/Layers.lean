import AccountService.Auth.Credentials
import AccountService.Auth.Engine
import AccountService.Pipeline.Exchange

/-!
# The standard layers

Around every route stand, from the outside in, the recovery from panics, the request log, the
answering of errors and the counting of requests. Routes add authentication and the check of
a role where they need them.

## Main definitions

* `Pipeline.panics`, `Pipeline.logger`, `Pipeline.errors`, `Pipeline.metrics` — around every
  route
* `Pipeline.authenticate`, `Pipeline.authorize` — added by routes
* `Pipeline.standard` — the four layers in their usual order
-/

namespace AccountService.Pipeline

open Http

/-- Turns a panic of what it wraps into an error, and counts it. -/
def panics {σ : Type} : Layer σ := fun next r =>
  tryCatch (next r) fun
    | .error e => fail e
    | .panic p => do
      if r.metered then count Metrics.addPanic
      fail (.panic p.message true)

/-- Logs the start and the end of a request. -/
def logger {σ : Type} : Layer σ := fun next r => do
  let context ← r.getContext
  let fields :=
    [("trace_id", context.traceId.text), ("method", r.incoming.method),
      ("path", r.incoming.path), ("remote_addr", r.incoming.remote.getD "")]
  log ⟨.info, "request started", fields⟩
  let result ← attempt (next r)
  -- The status is what was recorded on the way, also when the answer is another.
  let code := (((← get).status).map (·.code)).getD 0
  log ⟨.info, "request completed",
    fields ++ [("status_code", String.ofList (Numeral.ofNat code))]⟩
  match result with
  | .ok response => return response
  | .error e => fail e

/-- Answers the errors of what it wraps. Those meant for the caller are shown, all others look
alike; fatal ones are passed on after being logged. -/
def errors {σ : Type} : Layer σ := fun next r => do
  let context ← r.getContext
  match ← attempt (next r) with
  | .ok response => return response
  | .error e => do
    log ⟨.error, "request failed", [("trace_id", context.traceId.text), ("error", e.message)]⟩
    match e with
    | .request q => do
      recordStatus q.status
      return q.response
    | e => do
      recordStatus .internalError
      if e.isFatal then fail e else return internalErrorResponse

/-- Counts requests and errors, and the requests being handled. A request that carries no
metrics passes uncounted. -/
def metrics {σ : Type} : Layer σ := fun next r =>
  if r.metered then do
    count Metrics.addRequest
    count Metrics.enter
    tryCatch
      (do
        match ← attempt (next r) with
        | .ok response =>
          count Metrics.leave
          return response
        | .error e =>
          count Metrics.addError
          count Metrics.leave
          fail e)
      fun
        | .error e => fail e
        -- A panic is no error of the chain, but the request is over all the same.
        | .panic p => do
          count Metrics.leave
          panic p
  else next r

/-- Requires a token that the engine accepts, and lets what it wraps know whose it is. -/
def authenticate {σ : Type} (engine : Auth.Engine) (keys : σ → Auth.KeyStore) : Layer σ :=
  fun next r => do
    match Auth.bearerToken r.incoming.headers with
    | .error e => fail (.ofAuth e)
    | .ok token => do
      let x ← get
      match engine.accept (keys x.world) x.clock token with
      | .error e => do
        log ⟨.debug, "token rejected", [("trace_id", r.traceId), ("error", e.message)]⟩
        fail (.ofAuth e)
      | .ok (kid, claims) => do
        log ⟨.debug, "validated token", [("kid", kid), ("subject", claims.subject)]⟩
        next { r with claims := some claims }

/-- Requires that whoever sends the request has a role. It stands inside authentication. -/
def authorize {σ : Type} (role : String) : Layer σ := fun next r =>
  match r.claims with
  | none =>
    fail (.internal "claims missing from context: authorize used without authenticate" [])
  | some claims =>
    match Auth.ensureRole claims role with
    | .error f => fail (.ofForbidden f)
    | .ok () => next r

/-- The layers around every route, outermost first. -/
def standard {σ : Type} : List (Layer σ) := [panics, logger, errors, metrics]

end AccountService.Pipeline
