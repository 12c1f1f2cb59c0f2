import AccountService.Http.Route
import AccountService.Http.Message
import AccountService.Json.Basic
import AccountService.Pipeline.Metrics

/-!
# The debug interface

Three routes tell whether the service is ready, what it runs on, and its metrics. They stand
outside the pipeline, so that they answer also when it is unwell.

## Main definitions

* `Debug.State` — what is told
* `Debug.serve` — the answers
-/

namespace AccountService.Debug

open Http

/-- What is told: the build, the metrics, and the environment. -/
structure State where
  build : String
  metrics : Metrics
  /-- The value of a variable of the environment. -/
  environment : String → Option String

/-- An answer in JSON. -/
def answer (v : Json) : Response := ⟨.ok, [("content-type", "application/json")], v.render⟩

/-- The service is ready. -/
def readiness (_ : State) : Response := answer (.record [("status", .text "ok")])

/-- What the service runs on; what is unknown is left out. -/
def liveness (s : State) : Response :=
  let known (name source : String) : List (String × Json) :=
    match s.environment source with
    | some value => [(name, .text value)]
    | none => []
  answer <| .record <|
    [("status", .text "up"), ("build", .text s.build),
      ("host", .text ((s.environment "HOSTNAME").getD "unavailable"))] ++
      known "pod" "KUBERNETES_PODNAME" ++ known "podIP" "KUBERNETES_NAMESPACE_POD_IP" ++
      known "node" "KUBERNETES_NODENAME" ++ known "namespace" "KUBERNETES_NAMESPACE"

/-- The metrics in text form. -/
def metrics (s : State) : Response :=
  ⟨.ok, [("content-type", "text/plain; version=0.0.4")], s.metrics.exposition⟩

/-- The routes. -/
def router : Except RouteConflict (Router (State → Response)) := do
  let r ← Router.empty.register "GET" "/debug/readiness" readiness
  let r ← r.register "GET" "/debug/liveness" liveness
  r.register "GET" "/debug/metrics" metrics

/-- The answer to a request. -/
def serve (r : Router (State → Response)) (s : State) (method path : String) : Response :=
  match r.find method path with
  | .notFound => .ofStatus .notFound
  | .notAllowed allowed => ⟨.methodNotAllowed, [("allow", allowed)], ""⟩
  | .route handler _ => (handler s).sentFor method

end AccountService.Debug
