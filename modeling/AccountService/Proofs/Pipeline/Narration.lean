import AccountService.Proofs.Pipeline.Ensures
import AccountService.Proofs.Pipeline.Outcome

/-!
# What the log tells of a request

The log has two events of every request that meets a route: its start, before anything that is
logged inside the logger, and its end after it, with the status of the answer. The status in the log
is what was recorded last on the way, and the status of the answer is that of the response, the
error or the failure that came out; the two are kept together by whoever answers, which is the
handler for a value and the layer that answers errors for everything else.

## Main definitions

* `Pipeline.Extends` — a state has a log with further events
* `Pipeline.Forthright` — handlers of which the log can tell
* `Pipeline.Gate` — the layers of routes
* `Pipeline.insideLogger` — what stands inside the logger, run where the logger starts it
* `Pipeline.Narrated`, `Pipeline.Told` — a log that tells of a request
* `Pipeline.Gated` — gates around handlers of which the log can tell

## Main statements

* `Pipeline.forthright_of_ensures` — actions that only add to a log, whatever that has
* `Pipeline.Forthright.compose` — gates around a handler of which the log can tell
* `Pipeline.Narrated.once` — one start and one end
* `Pipeline.narrated_run` — a request that meets a route while the clock can be read
* `Pipeline.told_run` — every request that meets a route
-/

namespace AccountService.Pipeline

open Http

variable {σ α β : Type}

/-! ### Actions that add to the log -/

/-- A state has a log with further events, all of one kind. -/
def Extends (P : Log.Event → Prop) (l : List Log.Event) (x : Exchange σ) : Prop :=
  ∃ more, x.logged = more ++ l ∧ ∀ e ∈ more, P e

variable {P Q : Log.Event → Prop} {l : List Log.Event} {x : Exchange σ}

theorem extends_self : Extends P x.logged x := ⟨[], rfl, fun _ he => (List.not_mem_nil he).elim⟩

theorem Extends.logging (h : Extends P l x) {e : Log.Event} (he : P e) :
    Extends P l (x.logging e) := by
  obtain ⟨more, hlogged, hmore⟩ := h
  exact ⟨e :: more, congrArg (e :: ·) hlogged, List.forall_mem_cons.2 ⟨he, hmore⟩⟩

theorem Extends.imp (h : Extends P l x) (hPQ : ∀ e, P e → Q e) : Extends Q l x := by
  obtain ⟨more, hlogged, hmore⟩ := h
  exact ⟨more, hlogged, fun e he => hPQ e (hmore e he)⟩

theorem enduring_extends : Enduring P (Extends (σ := σ) P l) :=
  ⟨fun he hx => hx.logging he, fun _ hx => hx, fun _ _ hx => hx⟩

/-! ### Answers and their status -/

/-- What is answered for an error has the status that is recorded for it. -/
theorem status_answerOf_error (e : Error) :
    (answerOf (.error (.error e))).status = statusOf e := by
  cases e <;> rfl

/-! ### Handlers and gates -/

/-- A handler that does not end abruptly, adds only events of one kind to the log, and answers as
values are answered. -/
structure Forthright (P : Log.Event → Prop) (h : Handler σ) : Prop where
  settles : ∀ r x p, (exec (h r) x).1 ≠ .error (.panic p)
  adds : ∀ r x, Extends P x.logged (exec (h r) x).2
  responds : ∀ r x a, (exec (h r) x).1 = .ok a → Responded a (exec (h r) x).2

/-- The layers of routes: one wants a token, the other a role. -/
inductive Gate (σ : Type) where
  | authenticate (engine : Auth.Engine) (keys : σ → Auth.KeyStore)
  | authorize (role : String)

/-- The layer that a gate is. -/
def Gate.layer : Gate σ → Layer σ
  | authenticate engine keys => Pipeline.authenticate engine keys
  | authorize role => Pipeline.authorize role

/-- The messages of the logger. -/
def framing : List String := ["request started", "request completed"]

section Gates

variable {h next : Handler σ}

/-- A handler is forthright if it only adds to a log, whatever that has, and answers as values are
answered. -/
theorem forthright_of_ensures
    (hensures : ∀ r l, Ensures (Extends P l) (fun _ => True) (h r) Responded) :
    Forthright P h where
  settles r x p hpanic := by
    obtain ⟨-, ⟨v, hv, -⟩ | ⟨e, he, -⟩⟩ := hensures r x.logged x extends_self
    · cases hv.symm.trans hpanic
    · cases he.symm.trans hpanic
  adds r x := (hensures r x.logged x extends_self).1
  responds r x a ha := by
    obtain ⟨-, ⟨v, hv, hresponded⟩ | ⟨e, he, -⟩⟩ := hensures r x.logged x extends_self
    · obtain rfl := Except.ok.inj (hv.symm.trans ha)
      exact hresponded
    · cases he.symm.trans ha

theorem Forthright.ensures (hforthright : Forthright P h) (r : Request) :
    Ensures (Extends P l) (fun _ => True) (h r) Responded := by
  intro x hx
  obtain ⟨more, hlogged, hmore⟩ := hx
  obtain ⟨more', hlogged', hmore'⟩ := hforthright.adds r x
  refine ⟨⟨more' ++ more, ?_, List.forall_mem_append.2 ⟨hmore', hmore⟩⟩, ?_⟩
  · rw [hlogged', hlogged, List.append_assoc]
  · cases hresult : (exec (h r) x).1 with
    | ok a => exact .inl ⟨a, rfl, hforthright.responds r x a hresult⟩
    | error f =>
      cases f with
      | error e => exact .inr ⟨e, rfl, trivial⟩
      | panic p => exact absurd hresult (hforthright.settles r x p)

theorem Forthright.imp (hforthright : Forthright P h) (hPQ : ∀ e, P e → Q e) : Forthright Q h :=
  ⟨hforthright.settles, fun r x => (hforthright.adds r x).imp hPQ, hforthright.responds⟩

/-- Gates around a handler of which the log can tell. -/
theorem Forthright.compose (hP : ∀ e, e.message ∈ passing → P e) (hforthright : Forthright P h)
    (gates : List (Gate σ)) : Forthright P (compose (gates.map Gate.layer) h) := by
  induction gates with
  | nil => exact hforthright
  | cons g gates ih =>
    rw [List.map_cons, compose_cons]
    apply forthright_of_ensures
    intro r l
    cases g with
    | authenticate engine keys =>
      exact ensures_authenticate enduring_extends hP (fun _ _ => trivial) engine keys
        fun _ => ih.ensures _
    | authorize role =>
      exact ensures_authorize role (fun _ => trivial) (fun _ => trivial) (ih.ensures r)

end Gates

/-! ### The log of a request -/

/-- The messages of what is logged outside the logger. -/
def parting : List String :=
  ["panic escaped the request pipeline", "error escaped the request pipeline",
    Shutdown.warning.message]

/-- A log tells of a request that is answered: there is its start, then what is logged inside the
logger, then its end with the status of the answer, and then at most what is logged of an error
that stops the service. -/
structure Narrated (P : Log.Event → Prop) (c : Context) (r : Request) (inner : List Log.Event)
    (a : Response) (log : List Log.Event) : Prop where
  framed : ∃ outer, log = started c r :: inner ++ completed c r (some a.status) :: outer ∧
    ∀ e ∈ outer, e.message ∈ parting
  /-- What is logged inside is logged by the handler, by a gate, or where errors are answered. -/
  within : ∀ e ∈ inner, P e ∨ e.message ∈ passing

/-- If the handler does not speak for the logger, there is one start and one end. -/
theorem Narrated.once {c : Context} {r : Request} {inner log : List Log.Event} {a : Response}
    (h : Narrated P c r inner a log) {message : String} (hmessage : message ∈ framing)
    (hP : ∀ e, P e → e.message ≠ message) : log.countP (·.message == message) = 1 := by
  obtain ⟨outer, rfl, houter⟩ := h.framed
  have hpassing : ∀ m ∈ passing, m ∉ framing := by decide
  have hparting : ∀ m ∈ parting, m ∉ framing := by decide
  have hinner : inner.countP (·.message == message) = 0 := by
    refine List.countP_eq_zero.2 fun e he hmatch => ?_
    obtain rfl := eq_of_beq hmatch
    rcases h.within e he with hPe | hpasses
    · exact hP e hPe rfl
    · exact hpassing _ hpasses hmessage
  have hafter : outer.countP (·.message == message) = 0 := by
    refine List.countP_eq_zero.2 fun e he hmatch => ?_
    obtain rfl := eq_of_beq hmatch
    exact hparting _ (houter e he) hmessage
  rw [List.cons_append, List.countP_cons, List.countP_append, List.countP_cons, hinner, hafter]
  -- The start has the one message of the logger, the end the other.
  obtain rfl | rfl : message = "request started" ∨ message = "request completed" := by
    simpa [framing] using hmessage
  · rfl
  · rfl

/-! ### Requests that meet a route -/

section Run

variable (next : Handler σ) (x : Exchange σ) (now : Instant) (incoming : Incoming)
  (params : PathParams)

/-- What stands inside the logger, run where the logger starts it. -/
def insideLogger : Except Failure Response × Exchange σ :=
  exec (compose [errors, metrics] next (entering x now incoming params))
    ((drawn x).logging (started (contextOf x now) (entering x now incoming params)))

variable {next}

/-- What is logged inside the logger is what the route logs, and an error that it ends in. -/
theorem logged_insideLogger :
    (insideLogger next x now incoming params).2.logged =
      match inside next x now incoming params with
      | (.error (.error e), y) => failed (contextOf x now) e :: y.logged
      | (_, y) => y.logged := by
  rw [insideLogger, compose_cons, compose_cons, compose_nil,
    exec_errors (c := contextOf x now) _ _ rfl, exec_metrics next _ rfl]
  rw [show exec (next (entering x now incoming params))
    (((drawn x).logging (started (contextOf x now) (entering x now incoming params))).counting
      fun m => m.addRequest.enter) = inside next x now incoming params from rfl]
  rcases inside next x now incoming params with ⟨(e | p) | a, y⟩
  · cases e <;> rfl
  · rfl
  · rfl

/-- What is logged inside the logger comes after the start of the request. -/
theorem extends_insideLogger (hP : ∀ e, e.message ∈ passing → P e) (hnext : Forthright P next) :
    Extends P (started (contextOf x now) (entering x now incoming params) :: x.logged)
      (insideLogger next x now incoming params).2 := by
  have hadds := hnext.adds (entering x now incoming params)
    (begun (contextOf x now) (entering x now incoming params) (drawn x))
  obtain ⟨more, hlogged, hmore⟩ := hadds
  have hinside : (inside next x now incoming params).2.logged =
      more ++ started (contextOf x now) (entering x now incoming params) :: x.logged := hlogged
  rw [Extends, logged_insideLogger]
  generalize inside next x now incoming params = run at hinside
  obtain ⟨(e | p) | a, y⟩ := run
  · have hfailed : (failed (contextOf x now) e).message ∈ passing := by
      simp [failed, passing]
    exact ⟨_ :: more, congrArg (_ :: ·) hinside, List.forall_mem_cons.2 ⟨hP _ hfailed, hmore⟩⟩
  · exact ⟨more, hinside, hmore⟩
  · exact ⟨more, hinside, hmore⟩

/-- Of an outcome that is no panic the layers log the end of the request, after all that is logged
inside the logger, with the status of the answer. -/
theorem logged_settle (hnext : Forthright P next) :
    (settle (contextOf x now) (entering x now incoming params)
      (inside next x now incoming params).1 (inside next x now incoming params).2).logged =
      completed (contextOf x now) (entering x now incoming params)
          (some (answerOf (inside next x now incoming params).1).status) ::
        (insideLogger next x now incoming params).2.logged := by
  have hsettles := hnext.settles (entering x now incoming params)
    (begun (contextOf x now) (entering x now incoming params) (drawn x))
  have hresponds := hnext.responds (entering x now incoming params)
    (begun (contextOf x now) (entering x now incoming params) (drawn x))
  rw [← inside] at hsettles hresponds
  rw [logged_insideLogger]
  rcases hrun : inside next x now incoming params with ⟨(e | p) | a, y⟩
  · rw [status_answerOf_error]
    rfl
  · exact absurd (congrArg Prod.fst hrun) (hsettles p)
  · have hresponded := hresponds a (congrArg Prod.fst hrun)
    rw [hrun] at hresponded
    rw [show answerOf (.ok a) = a from rfl, ← hresponded.status_eq]
    rfl

/-- What is logged of what gets past the layers. -/
theorem logged_escape (c : Context) (outcome : Except Failure Response) (y : Exchange σ) :
    ∃ outer, (escape c outcome y).logged = outer ++ y.logged ∧ ∀ e ∈ outer, e.message ∈ parting := by
  rcases outcome with (e | p) | a
  · have hescaped : (escaped c e).message ∈ parting := by
      cases e <;> simp [escaped, parting]
    by_cases hsignalled : (y.logging (escaped c e)).signalled = true
    · refine ⟨[escaped c e], ?_, by simpa using hescaped⟩
      rw [escape, Exchange.signalling, if_pos hsignalled]
      rfl
    · refine ⟨[Shutdown.warning, escaped c e], ?_, ?_⟩
      · rw [escape, Exchange.signalling, if_neg hsignalled]
        rfl
      · simpa using ⟨by decide, hescaped⟩
  · exact ⟨[], rfl, by simp⟩
  · exact ⟨[], rfl, by simp⟩

end Run

section Serve

variable (site : Site σ) (clock : Instant) {app : App σ} {next : Handler σ} {r : Incoming}
  {values : List (String × List Char)}
  (hfind : app.router.find r.method r.path = .route (compose standard next) values)

include hfind

/-- A request that meets a route around a handler of which the log can tell. -/
theorem narrated_run {now : Instant} (hclock : Clock.read clock = .ok now)
    (hnext : Forthright (fun e => P e ∨ e.message ∈ passing) next) :
    ∃ a inner, (site.run clock (app.serve r)).1 = .ok a ∧
      (insideLogger next (opened site clock) now r (readParams values)).2.logged.reverse =
        started (contextOf (opened site clock) now)
          (entering (opened site clock) now r (readParams values)) :: inner ∧
      Narrated P (contextOf (opened site clock) now)
        (entering (opened site clock) now r (readParams values)) inner a
        (site.run clock (app.serve r)).2.2 := by
  have hserve := exec_serveRoute next r (readParams values) (x := opened site clock) hclock
  obtain ⟨more, hmore, hkind⟩ := extends_insideLogger (opened site clock) now r
    (readParams values) (fun e he => .inr he) hnext
  have hsettle := logged_settle (opened site clock) now r (readParams values) hnext
  rw [run_eq, App.serve, hfind]
  simp only [exec_bind, hserve, exec_pure]
  obtain ⟨outer, houter, hparting⟩ := logged_escape (contextOf (opened site clock) now)
    (conclude (inside next (opened site clock) now r (readParams values)).1)
    (settle (contextOf (opened site clock) now)
      (entering (opened site clock) now r (readParams values))
      (inside next (opened site clock) now r (readParams values)).1
      (inside next (opened site clock) now r (readParams values)).2)
  refine ⟨_, more.reverse, rfl, ?_, ⟨outer.reverse, ?_, ?_⟩, ?_⟩
  · rw [hmore]
    simp [opened]
  · -- The log is kept last event first.
    rw [houter, hsettle, hmore, status_sentFor]
    simp [opened]
  · exact fun e he => hparting e (List.mem_reverse.1 he)
  · exact fun e he => hkind e (List.mem_reverse.1 he)

/-- While the clock cannot be read, a request that meets a route leaves nothing in the log. -/
theorem logged_of_unreadable {message : String} (hclock : Clock.read clock = .error message) :
    (site.run clock (app.serve r)).2.2 = [] := by
  have hserve := exec_serveRoute_of_fault r (readParams values) (compose standard next)
    (x := opened site clock) hclock
  rw [run_eq, App.serve, hfind]
  simp only [exec_bind, hserve]
  rfl

end Serve

/-- What the log tells of a request that meets a route, run to a result and a log.

While the clock can be read, the request is answered. The log has its start before and its end after
whatever is logged inside the logger, both of this request, and the end has the status of the answer
that is sent; unless the handler itself logs under these messages, there is one event of each. While
the clock cannot be read, there is neither an answer nor a log. -/
def Told (P : Log.Event → Prop) (next : Handler σ) (site : Site σ) (clock : Instant)
    (r : Incoming) (params : PathParams) (result : Except Failure Response)
    (log : List Log.Event) : Prop :=
  match Clock.read clock with
  | .ok now =>
    let c := contextOf (opened site clock) now
    let q := entering (opened site clock) now r params
    ∃ a inner, result = .ok a ∧
      (insideLogger next (opened site clock) now r params).2.logged.reverse =
        started c q :: inner ∧
      Narrated P c q inner a log ∧
      ∀ message ∈ framing, (∀ e, P e → e.message ≠ message) →
        log.countP (·.message == message) = 1
  | .error message => result = .error (.panic (.text message)) ∧ log = []

/-- The routes of an application have gates around handlers of which the log can tell. -/
def Gated (P : Log.Event → Prop) (bs : List (Binding σ)) : Prop :=
  ∀ b ∈ bs, (∃ gates : List (Gate σ), b.layers = gates.map Gate.layer) ∧ Forthright P b.handler

/-- The log tells what the client got, in every application inside the standard layers whose
routes have gates around handlers of which the log can tell. -/
theorem told_run {bs : List (Binding σ)} {app : App σ} (hbuilt : App.Built standard bs app)
    (hgated : Gated P bs) (site : Site σ) (clock : Instant) (r : Incoming) {target : Handler σ}
    {values : List (String × List Char)}
    (hfind : app.router.find r.method r.path = .route target values) :
    ∃ b ∈ bs, Serves b.method (b.group ++ b.path) r.method r.path values ∧
      Told P b.inner site clock r (readParams values) (site.run clock (app.serve r)).1
        (site.run clock (app.serve r)).2.2 := by
  obtain ⟨b, hb, hserves, rfl⟩ := hbuilt.find hfind
  refine ⟨b, hb, hserves, ?_⟩
  unfold Told
  cases hclock : Clock.read clock with
  | ok now =>
    obtain ⟨⟨gates, hlayers⟩, hforthright⟩ := hgated b hb
    have hinner : Forthright (fun e => P e ∨ e.message ∈ passing) b.inner := by
      rw [Binding.inner, hlayers]
      exact (hforthright.imp fun _ he => .inl he).compose (fun _ he => .inr he) gates
    obtain ⟨a, inner, hresult, hlogged, hnarrated⟩ := narrated_run site clock hfind hclock hinner
    exact ⟨a, inner, hresult, hlogged, hnarrated,
      fun message hmessage => hnarrated.once hmessage⟩
  | error message =>
    exact ⟨(run_of_unreadable site clock hfind hclock).1,
      logged_of_unreadable site clock hfind hclock⟩

end AccountService.Pipeline
