import AccountService.Proofs.Http.Router
import AccountService.Proofs.Pipeline.Layers

/-!
# The law of outcomes

A route comes to an outcome inside the standard layers: an answer, an error or a panic. What the
client is sent, whether the service is asked to stop, and how the request is counted all follow
from the outcome alone, in every application that stands inside these layers, whatever is bound
in it and whatever the layers of its routes do.

## Main definitions

* `Pipeline.Binding`, `Pipeline.App.Built` — what is bound to a route, and applications as they
  come about
* `Pipeline.Reserved` — handlers that leave metrics and signal to the layers around them
* `Pipeline.Settled` — what an outcome comes to

## Main statements

* `Pipeline.App.Built.find` — what a request meets is what was bound
* `Pipeline.settled_run` — a request that meets a route inside the standard layers
* `Pipeline.settled_serve` — the law for every application inside the standard layers
* `Pipeline.not_verbatim` — what a client is not sent word for word
-/

namespace AccountService.Pipeline

open Http

variable {σ α : Type}

/-! ### Outcomes -/

/-- Whether a failure stops the service: a panic does, and so does a fatal error. -/
def Failure.isFatal : Failure → Bool
  | .error e => e.isFatal
  | .panic _ => true

/-- Whether an outcome stops the service. -/
def stops : Except Failure α → Bool
  | .ok _ => false
  | .error f => f.isFatal

/-- Whether an outcome is an error. -/
def isError : Except Failure α → Bool
  | .error (.error _) => true
  | _ => false

/-- Whether an outcome is a panic. -/
def isPanic : Except Failure α → Bool
  | .error (.panic _) => true
  | _ => false

/-- The metrics after one more request that came to an outcome. -/
def counted (outcome : Except Failure α) (m : Metrics) : Metrics :=
  ⟨m.requests + 1, m.errors + (isError outcome).toNat, m.panics + (isPanic outcome).toNat,
    m.inFlight⟩

/-- What an outcome of a route comes to for a request with a method, between the site before and
the site after it. -/
structure Settled (method : String) (outcome : Except Failure Response) (before : Site σ)
    (result : Except Failure Response) (after : Site σ) : Prop where
  /-- An answer is sent as it is. -/
  answered : ∀ a, outcome = .ok a → result = .ok (a.sentFor method)
  /-- An error that is meant for the caller is shown with its status, its text and its code, if
  a header can carry the code. -/
  shown : ∀ q, outcome = .error (.error (.request q)) →
    ∃ a : Response, result = .ok (a.sentFor method) ∧ a.status = q.status ∧ a.body = q.body ∧
      a.headers = ("content-type", "application/json") ::
        if isHeaderValue q.code then [("x-error-code", q.code)] else []
  /-- Every other failure is answered alike. -/
  hidden : ∀ f, outcome = .error f → (∀ q, f ≠ .error (.request q)) →
    result = .ok (internalErrorResponse.sentFor method)
  stopped : after.signalled = (before.signalled || stops outcome)
  counted : after.metrics = counted outcome before.metrics

/-! ### The standard layers -/

section Standard

variable {c : Context} {r : Request} {x y : Exchange σ}

@[simp] theorem metrics_begun :
    (begun c r x).metrics = x.metrics.addRequest.enter := rfl

@[simp] theorem signalled_begun : (begun c r x).signalled = x.signalled := rfl

@[simp] theorem signalled_settle (outcome : Except Failure Response) :
    (settle c r outcome y).signalled = y.signalled := by
  rcases outcome with f | v
  · cases f <;> rfl
  · rfl

@[simp] theorem signalled_signalling : y.signalling.signalled = true := by
  unfold Exchange.signalling
  split
  · next h => exact h
  · rfl

@[simp] theorem metrics_signalling : y.signalling.metrics = y.metrics := by
  unfold Exchange.signalling
  split <;> rfl

@[simp] theorem metrics_escape (outcome : Except Failure Response) :
    (escape c outcome y).metrics = y.metrics := by
  rcases outcome with f | v
  · cases f with
    | error e => simp [escape, Exchange.logging]
    | panic p => rfl
  · rfl

/-- Only a failure that stops the service gets past the layers and raises the signal. -/
theorem signalled_escape_conclude (outcome : Except Failure Response) :
    (escape c (conclude outcome) y).signalled = (y.signalled || stops outcome) := by
  rcases outcome with f | v
  · cases f with
    | error e => cases e <;> simp [conclude, escape, stops, Failure.isFatal, Error.isFatal]
    | panic p => simp [conclude, escape, stops, Failure.isFatal]
  · simp [conclude, escape, stops]

/-- The layers count a request once, an error once, a panic once, and let go of the request. -/
theorem metrics_settle (outcome : Except Failure Response)
    (h : y.metrics = (begun c r x).metrics) :
    (settle c r outcome y).metrics = counted outcome x.metrics := by
  rw [metrics_begun] at h
  -- What was taken at the start is given back at the end.
  have hinFlight (n : Int) : n + 1 - 1 = n := by omega
  rcases outcome with f | v
  · cases f with
    | error e =>
      simp [settle, Exchange.logging, Exchange.recording, Exchange.counting, h, counted, isError,
        isPanic, Metrics.addError, Metrics.leave, Metrics.addRequest, Metrics.enter, hinFlight]
    | panic p =>
      simp [settle, Exchange.counting, h, counted, isError, isPanic, Metrics.addPanic,
        Metrics.leave, Metrics.addRequest, Metrics.enter, hinFlight]
  · simp [settle, Exchange.logging, Exchange.counting, h, counted, isError, isPanic,
      Metrics.leave, Metrics.addRequest, Metrics.enter, hinFlight]

end Standard

/-- A state has the metrics and the signal of another. -/
def Spares (x y : Exchange σ) : Prop := y.metrics = x.metrics ∧ y.signalled = x.signalled

/-- A handler that leaves metrics and signal to the layers around it. -/
def Reserved (h : Handler σ) : Prop := ∀ r x, Spares x (exec (h r) x).2

/-- The outcome of a route for a request. -/
def routeOutcome (next : Handler σ) (site : Site σ) (clock now : Instant) (r : Incoming)
    (values : List (String × List Char)) : Except Failure Response :=
  (inside next (opened site clock) now r (readParams values)).1

section Run

variable (site : Site σ) (clock : Instant) {app : App σ} {next : Handler σ} {r : Incoming}
  {values : List (String × List Char)}
  (hfind : app.router.find r.method r.path = .route (compose standard next) values)

include hfind

/-- A request that meets a route inside the standard layers. -/
theorem settled_run {now : Instant} (hclock : Clock.read clock = .ok now)
    (hspares : Spares
      (begun (contextOf (opened site clock) now)
        (entering (opened site clock) now r (readParams values)) (drawn (opened site clock)))
      (inside next (opened site clock) now r (readParams values)).2) :
    Settled r.method (routeOutcome next site clock now r values) site
      (site.run clock (app.serve r)).1 (site.run clock (app.serve r)).2.1 := by
  have hserve := exec_serveRoute next r (readParams values) (x := opened site clock) hclock
  rw [run_eq, App.serve, hfind]
  simp only [exec_bind, hserve, exec_pure]
  obtain ⟨hmetrics, hsignalled⟩ := hspares
  -- What remains depends on the outcome and on the state that it left, not on the handler.
  refine
    { answered := fun a ha => ?_
      shown := fun q hq => ⟨q.response, ?_, rfl, rfl, rfl⟩
      hidden := fun f hf hnone => ?_
      stopped := ?_
      counted := ?_ }
  · rw [routeOutcome] at ha
    rw [ha, answerOf]
  · rw [routeOutcome] at hq
    rw [hq, answerOf]
  · rw [routeOutcome] at hf
    rw [hf]
    cases f with
    | error e =>
      cases e with
      | request q => exact absurd rfl (hnone q)
      | _ => rfl
    | panic p => rfl
  · have hstart := signalled_escape_conclude (c := contextOf (opened site clock) now)
      (y := settle (contextOf (opened site clock) now)
        (entering (opened site clock) now r (readParams values))
        (inside next (opened site clock) now r (readParams values)).1
        (inside next (opened site clock) now r (readParams values)).2)
      (inside next (opened site clock) now r (readParams values)).1
    rw [signalled_settle, hsignalled] at hstart
    exact hstart
  · exact (metrics_escape _).trans (metrics_settle _ hmetrics)

/-- A request that meets a route while the clock cannot be read ends abruptly, before anything
inside the route runs. -/
theorem run_of_unreadable {message : String} (hclock : Clock.read clock = .error message) :
    (site.run clock (app.serve r)).1 = .error (.panic (.text message)) ∧
      (site.run clock (app.serve r)).2.1.metrics = site.metrics ∧
      (site.run clock (app.serve r)).2.1.signalled = site.signalled := by
  have hserve := exec_serveRoute_of_fault r (readParams values) (compose standard next)
    (x := opened site clock) hclock
  rw [run_eq, App.serve, hfind]
  simp only [exec_bind, hserve]
  exact ⟨trivial, rfl, rfl⟩

end Run

/-! ### Applications -/

/-- What is bound to a route: a method and a path, a handler, and the layers of the route. -/
structure Binding (σ : Type) where
  method : String
  group : String
  path : String
  handler : Handler σ
  layers : List (Layer σ)

/-- The handler of a binding inside the layers of the route. -/
def Binding.inner (b : Binding σ) : Handler σ := compose b.layers b.handler

/-- An application with one more binding. -/
def App.bound (app : App σ) (b : Binding σ) : Except RouteFault (App σ) :=
  app.handle b.method b.group b.path b.handler b.layers

/-- Applications as they come about: without routes at first, and then by one binding after
another. -/
inductive App.Built (layers : List (Layer σ)) : List (Binding σ) → App σ → Prop where
  | new : Built layers [] (App.new layers)
  | handle {bs : List (Binding σ)} {app app' : App σ} (b : Binding σ) : Built layers bs app →
    app.handle b.method b.group b.path b.handler b.layers = .ok app' → Built layers (bs ++ [b]) app'

/-- A handler is that of a binding inside the layers of the application. -/
def Bound (layers : List (Layer σ)) (bs : List (Binding σ)) (method path : String)
    (target : Handler σ) : Prop :=
  ∃ b ∈ bs, b.method = method ∧ b.group ++ b.path = path ∧ target = compose layers b.inner

section Built

variable {layers : List (Layer σ)} {bs : List (Binding σ)} {app : App σ}

/-- A route is bound by the router, inside the layers of the application. -/
theorem App.register_of_handle {app' : App σ} {method group path : String} {handler : Handler σ}
    {inner : List (Layer σ)} (h : app.handle method group path handler inner = .ok app') :
    app'.layers = app.layers ∧
      app.router.register method (group ++ path) (compose app.layers (compose inner handler)) =
        .ok app'.router := by
  rw [App.handle] at h
  split at h
  · split at h
    · next router hregister =>
      cases h
      exact ⟨rfl, hregister⟩
    · cases h
  · cases h

/-- An application stays inside its layers, and whatever its router holds was bound. -/
theorem App.Built.holds (h : App.Built layers bs app) :
    app.layers = layers ∧ app.router.Holds (Bound layers bs) := by
  induction h with
  | new => exact ⟨rfl, Router.holds_empty⟩
  | @handle bs app app' b _ hhandle ih =>
    obtain ⟨rfl, hholds⟩ := ih
    obtain ⟨hlayers, hregister⟩ := App.register_of_handle hhandle
    have hmore : app.router.Holds (Bound app.layers (bs ++ [b])) := by
      intro e he
      obtain ⟨hparse, htargets⟩ := hholds e he
      refine ⟨hparse, fun t ht => ?_⟩
      obtain ⟨b', hb', hbound⟩ := htargets t ht
      exact ⟨b', List.mem_append_left _ hb', hbound⟩
    refine ⟨hlayers, hmore.register hregister ⟨b, ?_, rfl, rfl, rfl⟩⟩
    exact List.mem_append_right _ (List.mem_singleton_self b)

/-- Bindings are made one after another. -/
theorem App.Built.foldlM (h : App.Built layers bs app) {more : List (Binding σ)} {app' : App σ}
    (hmore : more.foldlM App.bound app = .ok app') : App.Built layers (bs ++ more) app' := by
  induction more generalizing bs app with
  | nil =>
    cases hmore
    rwa [List.append_nil]
  | cons b more ih =>
    rw [List.foldlM_cons] at hmore
    cases hhandle : app.bound b with
    | error fault =>
      rw [hhandle] at hmore
      cases hmore
    | ok app1 =>
      rw [hhandle] at hmore
      have hrest := ih (h.handle b hhandle) hmore
      rwa [List.append_assoc] at hrest

/-- What a request meets is what was bound for its method and its path. -/
theorem App.Built.find (h : App.Built layers bs app) {method path : String} {target : Handler σ}
    {values : List (String × List Char)}
    (hfind : app.router.find method path = .route target values) :
    ∃ b ∈ bs, Serves b.method (b.group ++ b.path) method path values ∧
      target = compose layers b.inner := by
  obtain ⟨_, _, ⟨b, hb, rfl, rfl, htarget⟩, hserves⟩ := h.holds.2.find hfind
  exact ⟨b, hb, hserves, htarget⟩

end Built

/-! ### A route of one handler -/

section Sample

variable (h : Handler Unit)

/-- One handler at one path. -/
def sampleBinding : Binding Unit := ⟨"GET", "", "/sample", h, []⟩

/-- The application of this handler inside the standard layers. -/
def sampleApp : App Unit :=
  ⟨standard, ⟨[⟨"/sample", ⟨literals "/sample".toList, []⟩, [("GET", compose standard h)]⟩]⟩⟩

/-- A site that has seen nothing. -/
def sampleSite : Site Unit := ⟨.zero, false, .ofSeed [], ()⟩

/-- A request for the path. -/
def sampleRequest (method : String) : Incoming := ⟨method, "/sample", [], [], none⟩

theorem built_sampleApp : App.Built standard [sampleBinding h] (sampleApp h) := by
  apply App.Built.handle (sampleBinding h) App.Built.new
  show (App.new standard).handle "GET" "" "/sample" h [] = .ok (sampleApp h)
  rfl

theorem find_sampleApp {method : String} (hmethod : method = "GET" ∨ method = "HEAD") :
    (sampleApp h).router.find (sampleRequest method).method (sampleRequest method).path =
      .route (compose standard (sampleBinding h).inner) [] := by
  let e : PathEntry (Handler Unit) :=
    ⟨"/sample", ⟨literals "/sample".toList, []⟩, [("GET", compose standard h)]⟩
  let candidate : Candidate (PathEntry (Handler Unit)) := ⟨literals "/sample".toList, [], e⟩
  obtain ⟨k, hk, -, hsearch⟩ := search_literals false (List.mem_singleton_self candidate) rfl
  obtain rfl := List.mem_singleton.1 hk
  have hfound : search false (sampleRequest method).path.toList
      ((sampleApp h).router.entries.map fun e => ⟨e.pattern.parts, [], e⟩) = .route [] e := hsearch
  have hdispatch : dispatch? e.targets (sampleRequest method).method =
      some (compose standard (sampleBinding h).inner) := by
    rcases hmethod with rfl | rfl <;> rfl
  rw [Router.find, hfound]
  simp only [hdispatch]
  rfl

end Sample

/-! ### The law -/

/-- The law of outcomes: in an application inside the standard layers, a request that meets a
route is settled by what was bound there, as long as that leaves metrics and signal alone. Nothing
of the route runs while the clock cannot be read. -/
theorem settled_serve {bs : List (Binding σ)} {app : App σ} (hbuilt : App.Built standard bs app)
    (hreserved : ∀ b ∈ bs, Reserved b.inner) (site : Site σ) (clock : Instant) (r : Incoming)
    {target : Handler σ} {values : List (String × List Char)}
    (hfind : app.router.find r.method r.path = .route target values) :
    ∃ b ∈ bs, Serves b.method (b.group ++ b.path) r.method r.path values ∧
      (∀ now, Clock.read clock = .ok now →
        Settled r.method (routeOutcome b.inner site clock now r values) site
          (site.run clock (app.serve r)).1 (site.run clock (app.serve r)).2.1) ∧
      ∀ message, Clock.read clock = .error message →
        (site.run clock (app.serve r)).1 = .error (.panic (.text message)) ∧
          (site.run clock (app.serve r)).2.1.metrics = site.metrics ∧
          (site.run clock (app.serve r)).2.1.signalled = site.signalled := by
  obtain ⟨b, hb, hserves, rfl⟩ := hbuilt.find hfind
  refine ⟨b, hb, hserves, ?_, ?_⟩
  · intro now hclock
    exact settled_run site clock hfind hclock (hreserved b hb _ _)
  · intro message hclock
    exact run_of_unreadable site clock hfind hclock

/-- The handler whatever it is asked: it falls. -/
def falling : Handler Unit := fun _ => panic .other

theorem settled_serve_falling :
    App.Built standard [sampleBinding falling] (sampleApp falling) ∧
      (∀ b ∈ [sampleBinding falling], Reserved b.inner) ∧
      (sampleApp falling).router.find "GET" "/sample" =
        .route (compose standard (sampleBinding falling).inner) [] ∧
      (sampleSite.run (.ofSeconds 0) ((sampleApp falling).serve (sampleRequest "GET"))).1 =
        .ok internalErrorResponse ∧
      (sampleSite.run (.ofSeconds 0)
        ((sampleApp falling).serve (sampleRequest "GET"))).2.1.signalled = true ∧
      (sampleSite.run (.ofSeconds 0)
        ((sampleApp falling).serve (sampleRequest "GET"))).2.1.metrics = ⟨1, 0, 1, 0⟩ := by
  have hreserved : ∀ b ∈ [sampleBinding falling], Reserved b.inner := by
    intro b hb r x
    obtain rfl := List.mem_singleton.1 hb
    exact ⟨rfl, rfl⟩
  have hfind := find_sampleApp falling (.inl rfl)
  obtain ⟨b, hb, _, hsettled, _⟩ := settled_serve (built_sampleApp falling) hreserved sampleSite
    (.ofSeconds 0) (sampleRequest "GET") hfind
  obtain rfl := List.mem_singleton.1 hb
  have h := hsettled (.ofSeconds 0) (by decide)
  refine ⟨built_sampleApp falling, hreserved, hfind, ?_, h.stopped, h.counted⟩
  exact h.hidden (.panic .other) rfl fun q hq => by cases hq

/-- An answer with a body. -/
def greeting : Response := ⟨.ok, [], "hello"⟩

/-- An error whose code breaks a line. -/
def unspeakable : RequestError := ⟨.badRequest, "bad
request", "no", none⟩

/-- Not everything is sent word for word: what a `GET` route answers loses its body on the way to
a client that asks by `HEAD`, and an error loses a code that no header can carry. -/
theorem not_verbatim :
    (App.Built standard [sampleBinding fun _ => pure greeting] (sampleApp fun _ => pure greeting) ∧
      (∀ r x, exec ((sampleBinding fun _ => pure greeting).inner r) x = (.ok greeting, x)) ∧
      (sampleSite.run (.ofSeconds 0)
        ((sampleApp fun _ => pure greeting).serve (sampleRequest "HEAD"))).1 =
          .ok ⟨.ok, [], ""⟩) ∧
    App.Built standard [sampleBinding fun _ => fail (.request unspeakable)]
        (sampleApp fun _ => fail (.request unspeakable)) ∧
      (∀ r x, exec ((sampleBinding fun _ => fail (.request unspeakable)).inner r) x =
        (.error (.error (.request unspeakable)), x)) ∧
      (sampleSite.run (.ofSeconds 0)
        ((sampleApp fun _ => fail (.request unspeakable)).serve (sampleRequest "GET"))).1 =
          .ok ⟨.badRequest, [("content-type", "application/json")], unspeakable.body⟩ := by
  have hclock : Clock.read (.ofSeconds 0) = .ok (.ofSeconds 0) := by decide
  refine ⟨⟨built_sampleApp _, fun r x => rfl, ?_⟩, built_sampleApp _, fun r x => rfl, ?_⟩
  · have h := settled_run sampleSite (.ofSeconds 0)
      (find_sampleApp (fun _ => pure greeting) (.inr rfl)) hclock ⟨rfl, rfl⟩
    exact h.answered greeting rfl
  · have h := settled_run sampleSite (.ofSeconds 0)
      (find_sampleApp (fun _ => fail (.request unspeakable)) (.inl rfl)) hclock ⟨rfl, rfl⟩
    obtain ⟨a, hresult, hstatus, hbody, hheaders⟩ := h.shown unspeakable rfl
    obtain ⟨status, headers, body⟩ := a
    subst hstatus hbody hheaders
    exact hresult

end AccountService.Pipeline
