import AccountService.Proofs.Pipeline.Exec

/-!
# What a request that meets a route comes to

Each of the standard layers has one law in terms of what it wraps. Together they say what
becomes of an outcome inside the layers: which answer is sent, and how metrics, log and signal
are left. The world and the randomness are left as the inside left them.

## Main definitions

* `Pipeline.answerOf` — the answer that is sent for an outcome
* `Pipeline.settle`, `Pipeline.escape` — the state that an outcome leaves behind
* `Pipeline.begun` — the state in which the inside of a route starts

## Main statements

* `Pipeline.exec_panics`, `Pipeline.exec_logger`, `Pipeline.exec_errors`,
  `Pipeline.exec_metrics` — the standard layers one by one
* `Pipeline.exec_standard` — the standard layers together
* `Pipeline.exec_serveRoute` — a request that meets a route
-/

namespace AccountService.Pipeline

open Http

variable {σ : Type} (next : Handler σ) (r : Request) (x : Exchange σ)

/-! ### The layers one by one -/

theorem exec_panics :
    exec (panics next r) x =
      match exec (next r) x with
      | (.error (.panic p), y) =>
        (.error (.error (.panic p.message true)),
          if r.metered then y.counting Metrics.addPanic else y)
      | (outcome, y) => (outcome, y) := by
  rw [panics, exec_tryCatch]
  rcases exec (next r) x with ⟨f | v, y⟩
  · cases f with
    | error e => rfl
    | panic p =>
      dsimp only
      split <;> rfl
  · rfl

/-- What the log tells of a request. -/
def fields (c : Context) (r : Request) : List (String × String) :=
  [("trace_id", c.traceId.text), ("method", r.incoming.method), ("path", r.incoming.path),
    ("remote_addr", r.incoming.remote.getD "")]

/-- The event at the start of a request. -/
def started (c : Context) (r : Request) : Log.Event := ⟨.info, "request started", fields c r⟩

/-- The event at the end of a request. -/
def completed (c : Context) (r : Request) (status : Option Status) : Log.Event :=
  ⟨.info, "request completed",
    fields c r ++ [("status_code", String.ofList (Numeral.ofNat ((status.map (·.code)).getD 0)))]⟩

variable {r} {c : Context} (hcontext : r.context = some c)

include hcontext

theorem exec_getContext : exec (r.getContext : Action σ Context) x = (.ok c, x) := by
  rw [Request.getContext, hcontext]
  rfl

theorem exec_logger :
    exec (logger next r) x =
      match exec (next r) (x.logging (started c r)) with
      | (.error (.panic p), y) => (.error (.panic p), y)
      | (outcome, y) => (outcome, y.logging (completed c r y.status)) := by
  simp only [logger, exec_bind, exec_getContext x hcontext, exec_log, exec_attempt, started, fields]
  generalize exec (next r) _ = inner
  rcases inner with ⟨f | v, y⟩
  · cases f <;> rfl
  · rfl

/-- The event of an error that is answered. -/
def failed (c : Context) (e : Error) : Log.Event :=
  ⟨.error, "request failed", [("trace_id", c.traceId.text), ("error", e.message)]⟩

/-- The status that is recorded for an error. -/
def statusOf : Error → Status
  | .request q => q.status
  | _ => .internalError

theorem exec_errors :
    exec (errors next r) x =
      match exec (next r) x with
      | (.error (.error e), y) =>
        let z := (y.logging (failed c e)).recording (statusOf e)
        match e with
        | .request q => (.ok q.response, z)
        | e => (if e.isFatal then .error (.error e) else .ok internalErrorResponse, z)
      | (outcome, y) => (outcome, y) := by
  simp only [errors, exec_bind, exec_getContext x hcontext, exec_attempt]
  rcases exec (next r) x with ⟨f | v, y⟩
  · cases f with
    | error e => cases e <;> rfl
    | panic p => rfl
  · rfl

omit hcontext in
theorem exec_metrics (hmetered : r.metered = true) :
    exec (metrics next r) x =
      match exec (next r) (x.counting fun m => m.addRequest.enter) with
      | (.ok v, y) => (.ok v, y.counting Metrics.leave)
      | (.error (.error e), y) => (.error (.error e), y.counting fun m => m.addError.leave)
      | (.error (.panic p), y) => (.error (.panic p), y.counting Metrics.leave) := by
  simp only [metrics, hmetered, if_true, exec_bind, exec_count, exec_tryCatch, exec_attempt]
  rw [show (x.counting Metrics.addRequest).counting Metrics.enter =
    x.counting fun m => m.addRequest.enter from rfl]
  rcases exec (next r) (x.counting fun m => m.addRequest.enter) with ⟨f | v, y⟩
  · cases f <;> rfl
  · rfl

/-! ### The layers together -/

/-- What the layers make of an outcome inside them. -/
def conclude : Except Failure Response → Except Failure Response
  | .ok response => .ok response
  | .error (.error (.request q)) => .ok q.response
  | .error (.error e) => if e.isFatal then .error (.error e) else .ok internalErrorResponse
  | .error (.panic p) => .error (.error (.panic p.message true))

/-- The state in which the layers leave an outcome inside them. -/
def settle (c : Context) (r : Request) : Except Failure Response → Exchange σ → Exchange σ
  | .ok _, y => (y.counting Metrics.leave).logging (completed c r y.status)
  | .error (.error e), y =>
    (((y.counting fun m => m.addError.leave).logging (failed c e)).recording
      (statusOf e)).logging (completed c r (some (statusOf e)))
  | .error (.panic _), y => y.counting fun m => m.leave.addPanic

/-- The state in which the inside of the layers starts. -/
def begun (c : Context) (r : Request) (x : Exchange σ) : Exchange σ :=
  (x.logging (started c r)).counting fun m => m.addRequest.enter

/-- The standard layers around anything. -/
theorem exec_standard (hmetered : r.metered = true) :
    exec (compose standard next r) x =
      (conclude (exec (next r) (begun c r x)).1,
        settle c r (exec (next r) (begun c r x)).1 (exec (next r) (begun c r x)).2) := by
  simp only [standard, compose_cons, compose_nil]
  -- From the outside in. What each layer does is then decided by the outcome inside.
  rw [exec_panics, exec_logger _ x hcontext, exec_errors _ _ hcontext, exec_metrics _ _ hmetered,
    begun]
  rcases exec (next r) ((x.logging (started c r)).counting fun m => m.addRequest.enter) with
    ⟨f | v, y⟩
  · cases f with
    | error e =>
      cases e with
      | request q => rfl
      | internal message causes => rfl
      | shutdown message => rfl
      | panic message located => rfl
      | route message => rfl
    | panic p =>
      simp only [hmetered, if_true]
      rfl
  · rfl

omit hcontext

@[simp] theorem world_settle (outcome : Except Failure Response) (y : Exchange σ) :
    (settle c r outcome y).world = y.world := by
  rcases outcome with f | v
  · cases f <;> rfl
  · rfl

@[simp] theorem world_begun : (begun c r x).world = x.world := rfl

@[simp] theorem clock_begun : (begun c r x).clock = x.clock := rfl

/-! ### Around the layers -/

/-- The answer that is sent for an outcome inside the layers. -/
def answerOf : Except Failure Response → Response
  | .ok response => response
  | .error (.error (.request q)) => q.response
  | .error _ => internalErrorResponse

theorem status_sentFor (method : String) (a : Response) : (a.sentFor method).status = a.status := by
  rw [Response.sentFor]
  split <;> rfl

/-- Other methods than these two are sent the whole answer. -/
theorem sentFor_eq_self {method : String} (hhead : method ≠ "HEAD") (hconnect : method ≠ "CONNECT")
    (a : Response) : a.sentFor method = a := by
  rw [Response.sentFor, if_neg]
  rintro (h | ⟨h, -⟩)
  · exact hhead h
  · exact hconnect h

/-- The event of an error that no layer answers. -/
def escaped (c : Context) : Error → Log.Event
  | .panic message _ =>
    ⟨.error, "panic escaped the request pipeline",
      [("trace_id", c.traceId.text), ("message", message)]⟩
  | e =>
    ⟨.error, "error escaped the request pipeline",
      [("trace_id", c.traceId.text), ("error", e.message)]⟩

/-- The state after the answer to what the layers made of an outcome. -/
def escape (c : Context) : Except Failure Response → Exchange σ → Exchange σ
  | .error (.error e), y => (y.logging (escaped c e)).signalling
  | _, y => y

@[simp] theorem world_escape (outcome : Except Failure Response) (y : Exchange σ) :
    (escape c outcome y).world = y.world := by
  rcases outcome with f | v
  · cases f with
    | error e => simp [escape]
    | panic p => rfl
  · rfl

/-- The state in which the layers of a route start: an identifier has been drawn. -/
def drawn (x : Exchange σ) : Exchange σ := { x with entropy := (Uuid.draw x.entropy).2 }

/-- What a request is known by, drawn from the randomness of a state. -/
def contextOf (x : Exchange σ) (now : Instant) : Context := ⟨(Uuid.draw x.entropy).1, now⟩

/-- A request as it enters the layers. -/
def entering (x : Exchange σ) (now : Instant) (incoming : Incoming) (params : PathParams) :
    Request :=
  ⟨incoming, params, some (contextOf x now), true, none⟩

@[simp] theorem world_drawn : (drawn x).world = x.world := rfl

@[simp] theorem clock_drawn : (drawn x).clock = x.clock := rfl

variable {now : Instant} (incoming : Incoming) (params : PathParams)

/-- The outcome of a route inside the standard layers, and the state in which it leaves. -/
def inside (x : Exchange σ) (now : Instant) (incoming : Incoming) (params : PathParams) :
    Except Failure Response × Exchange σ :=
  exec (next (entering x now incoming params))
    (begun (contextOf x now) (entering x now incoming params) (drawn x))

/-- A request that meets a route inside the standard layers is answered, whatever its outcome,
and the outcome alone decides how. -/
theorem exec_serveRoute (hclock : Clock.read x.clock = .ok now) :
    exec (serveRoute (compose standard next) incoming params) x =
      (.ok (answerOf (inside next x now incoming params).1),
        escape (contextOf x now) (conclude (inside next x now incoming params).1)
          (settle (contextOf x now) (entering x now incoming params)
            (inside next x now incoming params).1 (inside next x now incoming params).2)) := by
  have hstandard := exec_standard next (r := entering x now incoming params) (drawn x) rfl rfl
  simp only [serveRoute, exec_bind, exec_get, exec_set, hclock, exec_attempt]
  rw [show (⟨incoming, params, some ⟨(Uuid.draw x.entropy).1, now⟩, true, none⟩ : Request) =
    entering x now incoming params from rfl,
    show ({ x with entropy := (Uuid.draw x.entropy).2 } : Exchange σ) = drawn x from rfl,
    hstandard]
  simp only [inside, contextOf, entering]
  -- From here on only the outcome matters, not how it came about.
  generalize exec (next _) _ = inner
  rcases inner with ⟨f | v, y⟩
  · cases f with
    | error e =>
      cases e <;> simp [conclude, answerOf, escape, escaped, Error.isFatal, exec_bind, exec_map]
    | panic p => simp [conclude, answerOf, escape, escaped, exec_bind, exec_map]
  · rfl

/-- A request that meets a route while the clock cannot be read ends in a panic, and nothing has
happened but that an identifier was drawn. -/
theorem exec_serveRoute_of_fault (h : Handler σ) {message : String}
    (hclock : Clock.read x.clock = .error message) :
    exec (serveRoute h incoming params) x = (.error (.panic (.text message)), drawn x) := by
  simp only [serveRoute, exec_bind, exec_get, exec_set, hclock, exec_panic]
  rfl

end AccountService.Pipeline
