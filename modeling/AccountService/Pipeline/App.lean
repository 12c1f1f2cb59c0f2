import AccountService.Http.Route
import AccountService.Pipeline.Layers

/-!
# Applications

An application binds handlers to routes inside the layers that stand around all of them.
Every request that meets a route gets a context of its own; an error that escapes the layers
stops the service.

## Main definitions

* `Pipeline.App`, `Pipeline.App.handle` — an application and the binding of routes
* `Pipeline.serveRoute` — a request that meets a route
* `Pipeline.App.serve` — any request
-/

namespace AccountService.Pipeline

open Http

/-- Handlers bound to routes, and the layers around all of them. -/
structure App (σ : Type) where
  /-- The layers around every route, outermost first. -/
  layers : List (Layer σ)
  router : Router (Handler σ)

/-- An application without routes. -/
def App.new {σ : Type} (layers : List (Layer σ)) : App σ := ⟨layers, .empty⟩

/-- Why a route is not bound. -/
inductive RouteFault where
  /-- The method cannot be bound. -/
  | refused (e : Error)
  /-- The path cannot be bound: the service is put together wrong. -/
  | conflict (c : RouteConflict)
  deriving DecidableEq, Repr

/-- Binds a handler to a method and the path `group ++ path`. The layers of the route stand
inside those of the application. -/
def App.handle {σ : Type} (app : App σ) (method group path : String) (handler : Handler σ)
    (layers : List (Layer σ)) : Except RouteFault (App σ) :=
  if bindableMethods.contains method then
    match app.router.register method (group ++ path)
        (compose app.layers (compose layers handler)) with
    | .ok router => .ok { app with router := router }
    | .error c => .error (.conflict c)
  else
    .error (.refused (.route
      (method ++ " " ++ path ++ ": no `MethodFilter` for `" ++ method ++ "`")))

/-- A request that meets a route: it begins, runs through the handler, and is answered. -/
def serveRoute {σ : Type} (handler : Handler σ) (incoming : Incoming) (params : PathParams) :
    Action σ Response := do
  let x ← get
  let (traceId, entropy) := Uuid.draw x.entropy
  set { x with entropy := entropy }
  match Clock.read x.clock with
  | .error message => panic (.text message)
  | .ok now => do
    let context : Context := ⟨traceId, now⟩
    match ← attempt (handler ⟨incoming, params, some context, true, none⟩) with
    | .ok response => return response
    | .error e => do
      match e with
      | .panic message _ =>
        log ⟨.error, "panic escaped the request pipeline",
          [("trace_id", traceId.text), ("message", message)]⟩
      | e =>
        log ⟨.error, "error escaped the request pipeline",
          [("trace_id", traceId.text), ("error", e.message)]⟩
      signalShutdown
      return internalErrorResponse

/-- The parameters that a route takes from the path. -/
def readParams (values : List (String × List Char)) : PathParams :=
  match values.mapM fun (name, value) => (decodeValue value).map (name, ·) with
  | some params => .read params
  | none => .unreadable

/-- Answers a request. -/
def App.serve {σ : Type} (app : App σ) (incoming : Incoming) : Action σ Response := do
  match app.router.find incoming.method incoming.path with
  | .notFound => return .ofStatus .notFound
  | .notAllowed allowed => return ⟨.methodNotAllowed, [("allow", allowed)], ""⟩
  | .route handler values => do
    let response ← serveRoute handler incoming (readParams values)
    return response.sentFor incoming.method

/-- Runs an action at an instant. The result comes with what outlives the request and the
events in order. -/
def Site.run {σ α : Type} (site : Site σ) (clock : Instant) (action : Action σ α) :
    Except Failure α × Site σ × List Log.Event :=
  let (result, x) := action.run ⟨site, clock, none, []⟩
  (result, x.toSite, x.logged.reverse)

end AccountService.Pipeline
