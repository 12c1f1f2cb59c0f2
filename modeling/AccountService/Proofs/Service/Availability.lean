import AccountService.Proofs.Service.Access
import AccountService.Proofs.Service.Conduct

/-!
# No client can stop the service

No handler of the service does harm, whatever a request says. So every request is answered, the
service is never asked to stop, and the metrics tell, after any run of requests, how many of them
met a route and how many of those were not answered as a success.

## Main definitions

* `Api.tallied` — the metrics after one more request
* `Api.answers` — what the requests of a run are answered

## Main statements

* `Api.harmless_inner` — no endpoint does harm
* `Api.unharmed_serve` — one request
* `Api.unharmed_after` — a run of requests
* `Api.available` — no run of requests stops the service
* `Api.not_available_beyond_timestamps` — a clock that reads too much does
-/

namespace AccountService.Api

open Http Pipeline

variable {σ : Type}

/-! ### Handlers -/

/-- Whatever a handler may end in is mild. -/
theorem allows_mild (s : Settings σ) : Allows s Error.Mild :=
  ⟨fun _ he => he.mild, fun e _ => mild_toPipeline e⟩

/-- No endpoint does harm: neither its handler nor the layers around it. -/
theorem harmless_inner {z : Exchange (World σ)} {r : Request} {c : Context}
    (hcontext : r.context = some c) (s : Settings σ) (p : Endpoint) :
    Harmless z (p.inner s r) Succeeds := by
  have hinner : Ensures (Spares z) Error.Mild (p.inner s r) Obliges :=
    ensures_inner enduring_spares (allows_mild s) hcontext p
      fun _ _ _ _ => ⟨rfl, of_decide_eq_true rfl⟩
  exact (hinner.imp fun _ _ hobliges => hobliges.2).harmless

/-! ### One request -/

/-- Whether a request meets a route. -/
def meets (a : App (World σ)) (r : Incoming) : Bool :=
  match a.router.find r.method r.path with
  | .route _ _ => true
  | _ => false

/-- Whether a result is anything but a success. -/
def falters : Except Failure Response → Bool
  | .ok a => decide (400 ≤ a.status.code)
  | .error _ => true

/-- The metrics after one more request, which met a route or not, and its result. -/
def tallied (met : Bool) (result : Except Failure Response) (m : Metrics) : Metrics :=
  ⟨m.requests + met.toNat, m.errors + (met && falters result).toNat, m.panics, m.inFlight⟩

/-- A request leaves the service as it should: it is answered, it does not ask the service to
stop, and it is counted if it met a route. -/
structure Unharmed (met : Bool) (before : Site (World σ)) (result : Except Failure Response)
    (after : Site (World σ)) : Prop where
  answered : ∃ a, result = .ok a
  signalled : after.signalled = before.signalled
  metrics : after.metrics = tallied met result before.metrics

theorem falters_sentFor (method : String) (a : Response) :
    falters (.ok (a.sentFor method)) = decide (400 ≤ a.status.code) := by
  rw [falters, status_sentFor]

/-- A request whose outcome is a success or a mild error, in the standard layers. -/
theorem unharmed_of_settled {method : String} {outcome result : Except Failure Response}
    {before after : Site (World σ)} (h : Settled method outcome before result after)
    (houtcome : (∃ a, outcome = .ok a ∧ Succeeds a) ∨
      ∃ e : Error, outcome = .error (.error e) ∧ e.Mild) :
    Unharmed true before result after := by
  have hsignalled := h.stopped
  have hmetrics := h.counted
  obtain ⟨a, rfl, hsucceeds⟩ | ⟨e, rfl, hfatal, hcode⟩ := houtcome
  · obtain rfl := h.answered a rfl
    refine ⟨⟨_, rfl⟩, by simpa [stops] using hsignalled, ?_⟩
    have hfalters : falters (.ok (a.sentFor method)) = false := by
      rw [falters_sentFor]
      exact decide_eq_false (not_le.2 hsucceeds)
    rw [hmetrics, counted, tallied, hfalters]
    rfl
  · -- The caller is shown the error, or that there was one.
    have hshown : ∃ a : Response, result = .ok (a.sentFor method) ∧ a.status = statusOf e := by
      cases e with
      | request q =>
        obtain ⟨a, hresult, hstatus, -⟩ := h.shown q rfl
        exact ⟨a, hresult, hstatus⟩
      | _ => exact ⟨_, h.hidden _ rfl fun q hq => (by cases hq), rfl⟩
    obtain ⟨a, rfl, hstatus⟩ := hshown
    refine ⟨⟨_, rfl⟩, by simpa [stops, Failure.isFatal, hfatal] using hsignalled, ?_⟩
    have hfalters : falters (.ok (a.sentFor method)) = true := by
      rw [falters_sentFor, hstatus]
      exact decide_eq_true hcode
    rw [hmetrics, counted, tallied, hfalters]
    rfl

/-- While the clock can be read, every request is answered, and none asks the service to stop. -/
theorem unharmed_serve (s : Settings σ) (site : Site (World σ)) {clock now : Instant}
    (hclock : Clock.read clock = .ok now) (r : Incoming) :
    Unharmed (meets (application s) r) site (site.run clock ((application s).serve r)).1
      (site.run clock ((application s).serve r)).2.1 := by
  by_cases hnamed : ∃ res : Resource, res.Proper ∧ r.path.toList = res.path
  · obtain ⟨res, hproper, hpath⟩ := hnamed
    have hfind := find_of_path s hproper hpath r.method
    by_cases hanswers : res.Answers r.method
    · rw [if_pos hanswers] at hfind
      have hmet : meets (application s) r = true := by rw [meets, hfind]
      obtain ⟨hspares, houtcome⟩ := harmless_inner (context_arriving site clock now r res) s
        res.endpoint (opening site clock now r res) ⟨rfl, rfl⟩
      rw [hmet]
      exact unharmed_of_settled (settled_run site clock hfind hclock hspares) houtcome
    · rw [if_neg hanswers] at hfind
      have hmet : meets (application s) r = false := by rw [meets, hfind]
      obtain ⟨hresult, hsite⟩ := run_of_not_answers s site clock hproper hpath hanswers
      rw [hmet, hsite]
      exact ⟨⟨_, hresult⟩, rfl, rfl⟩
  · have hnone : ∀ res : Resource, res.Proper → r.path.toList ≠ res.path :=
      fun res hproper hpath => hnamed ⟨res, hproper, hpath⟩
    have hmet : meets (application s) r = false := by rw [meets, find_of_no_path s hnone]
    obtain ⟨hresult, hsite⟩ := run_of_no_path s site clock hnone
    rw [hmet, hsite]
    exact ⟨⟨_, hresult⟩, rfl, rfl⟩

/-! ### A run of requests -/

/-- What the requests of a run are answered, each at its own reading of the clock. -/
def answers (a : App (World σ)) (site : Site (World σ)) :
    List (Instant × Incoming) → List (Incoming × Except Failure Response)
  | [] => []
  | (clock, r) :: rest =>
    (r, (site.run clock (a.serve r)).1) :: answers a (site.run clock (a.serve r)).2.1 rest

/-- A run of requests leaves the service as it should: every request is answered, none asks the
service to stop, and the metrics have grown by the requests that met a route and by those of them
that were not answered as a success. -/
structure UnharmedBy (a : App (World σ)) (rs : List (Instant × Incoming))
    (before : Site (World σ)) : Prop where
  answered : ∀ t ∈ answers a before rs, ∃ response, t.2 = .ok response
  signalled : (after a before rs).signalled = before.signalled
  metrics : (after a before rs).metrics =
    ⟨before.metrics.requests + (answers a before rs).countP fun t => meets a t.1,
      before.metrics.errors + (answers a before rs).countP fun t => meets a t.1 && falters t.2,
      before.metrics.panics, before.metrics.inFlight⟩

theorem unharmed_after (s : Settings σ) (rs : List (Instant × Incoming))
    (hclock : ∀ t ∈ rs, ∃ now, Clock.read t.1 = .ok now) (site : Site (World σ)) :
    UnharmedBy (application s) rs site := by
  -- On the requests, from whatever site they start.
  induction rs generalizing site with
  | nil => exact ⟨fun t ht => (List.not_mem_nil ht).elim, rfl, rfl⟩
  | cons timed rest ih =>
    obtain ⟨clock, r⟩ := timed
    obtain ⟨now, hnow⟩ := hclock _ List.mem_cons_self
    have hfirst := unharmed_serve s site hnow r
    have hrest := ih (fun t ht => hclock t (List.mem_cons_of_mem _ ht))
      (site.run clock ((application s).serve r)).2.1
    refine ⟨?_, hrest.signalled.trans hfirst.signalled, ?_⟩
    · intro t ht
      rcases List.mem_cons.1 ht with rfl | ht
      · exact hfirst.answered
      · exact hrest.answered t ht
    · -- The first request is counted before those that follow it.
      have hcons (b : Bool) (m n : Nat) : m + b.toNat + n = m + (n + if b then 1 else 0) := by
        cases b with
        | false => rfl
        | true =>
          rw [Bool.toNat_true, if_pos rfl]
          omega
      rw [after, hrest.metrics, hfirst.metrics, answers, List.countP_cons, List.countP_cons,
        tallied, hcons, hcons]

/-- No run of requests stops the service, as long as the clock can be read: none ends abruptly,
the signal is never raised, and afterwards no request is in flight, while the metrics tell how many
met a route and how many of those were not answered as a success. -/
theorem available (engine : Auth.Engine) (scheme : Accounts.PasswordScheme) (issuer : String)
    (tokenTtl : Span) :
    ∃ a, app ⟨engine, .memory scheme, issuer, tokenTtl⟩ = .ok a ∧
      ∀ (entropy : Entropy) (world : World Accounts.Store) (rs : List (Instant × Incoming)),
        (∀ t ∈ rs, 0 ≤ t.1.nanos ∧ t.1.isTimestamp = true ∧ engine.leeway ≤ t.1.seconds) →
        let start : Site (World Accounts.Store) := ⟨.zero, false, entropy, world⟩
        (∀ t ∈ answers a start rs, ∃ response, t.2 = .ok response) ∧
          (after a start rs).signalled = false ∧
          (after a start rs).metrics =
            ⟨(answers a start rs).countP fun t => meets a t.1,
              (answers a start rs).countP fun t => meets a t.1 && falters t.2, 0, 0⟩ := by
  refine ⟨_, app_eq_ok _, fun entropy world rs hclocks => ?_⟩
  have hreadable : ∀ t ∈ rs, ∃ now, Clock.read t.1 = .ok now := by
    intro t ht
    obtain ⟨hepoch, hrange, -⟩ := hclocks t ht
    exact ⟨t.1, Clock.read_eq_ok_iff.2 ⟨rfl, hepoch, hrange⟩⟩
  obtain ⟨hanswered, hsignalled, hmetrics⟩ := unharmed_after
    ⟨engine, .memory scheme, issuer, tokenTtl⟩ rs hreadable ⟨.zero, false, entropy, world⟩
  refine ⟨hanswered, hsignalled, ?_⟩
  simpa [Metrics.zero] using hmetrics

/-- A run of three requests: one that is served, one that is refused, and one that meets no
route. -/
def sampleRun : List (Instant × Incoming) :=
  [(.ofSeconds 100, ⟨"HEAD", "/v1/test", [], [], none⟩),
    (.ofSeconds 100, ⟨"GET", "/v1/testauth", [], [], none⟩),
    (.ofSeconds 101, ⟨"GET", "/v1", [], [], none⟩)]

theorem available_sampleRun :
    ∃ a, app ⟨.sample (some "accounts"), .memory .digest, "accounts", .ofSeconds 3600⟩ = .ok a ∧
      (∀ t ∈ sampleRun, 0 ≤ t.1.nanos ∧ t.1.isTimestamp = true ∧
        (Auth.Engine.sample (some "accounts")).leeway ≤ t.1.seconds) ∧
      let start : Site (World Accounts.Store) :=
        ⟨.zero, false, .ofSeed [], ⟨Auth.Engine.sampleKeys, .empty⟩⟩
      (after a start sampleRun).signalled = false ∧
        (after a start sampleRun).metrics = ⟨2, 1, 0, 0⟩ := by
  obtain ⟨a, ha, h⟩ := available (.sample (some "accounts")) .digest "accounts" (.ofSeconds 3600)
  have hclocks : ∀ t ∈ sampleRun, 0 ≤ t.1.nanos ∧ t.1.isTimestamp = true ∧
      (Auth.Engine.sample (some "accounts")).leeway ≤ t.1.seconds := by decide
  obtain ⟨-, hsignalled, hmetrics⟩ :=
    h (.ofSeed []) ⟨Auth.Engine.sampleKeys, .empty⟩ sampleRun hclocks
  refine ⟨a, ha, hclocks, hsignalled, hmetrics.trans ?_⟩
  obtain rfl := Except.ok.inj (ha.symm.trans (app_eq_ok _))
  decide +kernel

/-- A clock that reads more than a timestamp can hold is after 1970 too, and a request that meets
a route then ends abruptly and is not counted. -/
theorem not_available_beyond_timestamps :
    ∃ a, app ⟨.sample (some "accounts"), .memory .digest, "accounts", .ofSeconds 3600⟩ = .ok a ∧
      let site : Site (World Accounts.Store) :=
        ⟨.zero, false, .ofSeed [], ⟨Auth.Engine.sampleKeys, .empty⟩⟩
      let clock := Instant.ofSeconds 8210266876800
      let r : Incoming := ⟨"GET", "/v1/test", [], [], none⟩
      0 ≤ clock.nanos ∧ (Auth.Engine.sample (some "accounts")).leeway ≤ clock.seconds ∧
        meets a r = true ∧
        (site.run clock (a.serve r)).1 =
          .error (.panic (.text "called `Option::unwrap()` on a `None` value")) ∧
        (site.run clock (a.serve r)).2.1.metrics = ⟨0, 0, 0, 0⟩ := by
  refine ⟨_, app_eq_ok _, by decide, by decide, ?_⟩
  have hproper : Resource.test.Proper := trivial
  have hpath : "/v1/test".toList = Resource.test.path := rfl
  have hfind := find_of_path
    ⟨.sample (some "accounts"), .memory .digest, "accounts", .ofSeconds 3600⟩ hproper hpath "GET"
  rw [if_pos (.inl rfl)] at hfind
  have hclock : Clock.read (.ofSeconds 8210266876800) = .error Clock.overrunMessage := by decide
  obtain ⟨hresult, hmetrics, -⟩ := run_of_unreadable ⟨.zero, false, .ofSeed [], ⟨_, .empty⟩⟩
    (.ofSeconds 8210266876800) (r := ⟨"GET", "/v1/test", [], [], none⟩) hfind hclock
  exact ⟨by rw [meets, hfind], hresult, hmetrics⟩

end AccountService.Api
