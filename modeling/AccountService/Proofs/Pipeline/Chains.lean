import AccountService.Proofs.Pipeline.Outcome

/-!
# The standard layers in any order

The standard layers keep their accounts in whatever order they stand and however often they are
repeated. A layer does something before what it wraps, makes something of the outcome, and does
something after it; a chain of layers does all of this from the outside in and back again. Only
two of them change an outcome: a layer that recovers from panics, and a layer that answers errors.
An outcome is therefore the same at every layer until it meets the innermost one that can change
it, and the layers that count see it as it is where they stand.

## Main definitions

* `Pipeline.StandardLayer` — the standard layers by name
* `Pipeline.chain` — a handler inside such layers
* `Pipeline.within` — what the inner part of a chain comes to
* `Pipeline.Rise` — how far the metrics rise
* `Pipeline.Accounted` — what a chain makes of an outcome, and how it counts it

## Main statements

* `Pipeline.exec_chain` — a chain around anything
* `Pipeline.between_through` — what a chain adds to the metrics
* `Pipeline.accounted_chain` — the accounts of every chain
-/

namespace AccountService.Pipeline

open Http

variable {σ : Type}

/-! ### One layer -/

/-- The standard layers by name. -/
inductive StandardLayer where
  | panics
  | logger
  | errors
  | metrics
  deriving DecidableEq, Repr

namespace StandardLayer

/-- The layer of a name. -/
def layer : StandardLayer → Layer σ
  | panics => Pipeline.panics
  | logger => Pipeline.logger
  | errors => Pipeline.errors
  | metrics => Pipeline.metrics

/-- The state in which a layer starts what it wraps. -/
def enter (c : Context) (r : Request) : StandardLayer → Exchange σ → Exchange σ
  | panics, x => x
  | logger, x => x.logging (started c r)
  | errors, x => x
  | metrics, x => x.counting fun m => m.addRequest.enter

/-- What a layer makes of the outcome of what it wraps. -/
def turn : StandardLayer → Except Failure Response → Except Failure Response
  | panics, .error (.panic p) => .error (.error (.panic p.message true))
  | errors, .error (.error e) =>
    if e.isFatal then .error (.error e) else .ok (answerOf (.error (.error e)))
  | _, outcome => outcome

/-- The state in which a layer leaves, after the outcome of what it wraps. -/
def leave (c : Context) (r : Request) :
    StandardLayer → Except Failure Response → Exchange σ → Exchange σ
  | panics, .error (.panic _), y => y.counting Metrics.addPanic
  | logger, .error (.panic _), y => y
  | logger, _, y => y.logging (completed c r y.status)
  | errors, .error (.error e), y => (y.logging (failed c e)).recording (statusOf e)
  | metrics, .error (.error _), y => y.counting fun m => m.addError.leave
  | metrics, _, y => y.counting Metrics.leave
  | _, _, y => y

variable {c : Context} {r : Request} (hcontext : r.context = some c) (hmetered : r.metered = true)

include hcontext hmetered

/-- A layer around anything. -/
theorem exec_layer (l : StandardLayer) (next : Handler σ) (x : Exchange σ) :
    exec (l.layer next r) x =
      (l.turn (exec (next r) (l.enter c r x)).1,
        l.leave c r (exec (next r) (l.enter c r x)).1 (exec (next r) (l.enter c r x)).2) := by
  cases l with
  | panics =>
    rw [layer, exec_panics, enter]
    rcases exec (next r) x with ⟨(e | p) | v, y⟩
    · rfl
    · rw [hmetered]
      rfl
    · rfl
  | logger =>
    rw [layer, exec_logger next x hcontext, enter]
    rcases exec (next r) (x.logging (started c r)) with ⟨(e | p) | v, y⟩ <;> rfl
  | errors =>
    rw [layer, exec_errors next x hcontext, enter]
    rcases exec (next r) x with ⟨(e | p) | v, y⟩
    · cases e <;> rfl
    · rfl
    · rfl
  | metrics =>
    rw [layer, exec_metrics next x hmetered, enter]
    rcases exec (next r) (x.counting fun m => m.addRequest.enter) with ⟨(e | p) | v, y⟩ <;> rfl

end StandardLayer

/-! ### Chains -/

/-- A handler inside standard layers; the first layer is the outermost. -/
def chain (layers : List StandardLayer) (h : Handler σ) : Handler σ :=
  compose (layers.map StandardLayer.layer) h

@[simp] theorem chain_nil (h : Handler σ) : chain [] h = h := rfl

@[simp] theorem chain_cons (l : StandardLayer) (layers : List StandardLayer) (h : Handler σ) :
    chain (l :: layers) h = l.layer (chain layers h) := rfl

theorem chain_append (outer inner : List StandardLayer) (h : Handler σ) :
    chain (outer ++ inner) h = chain outer (chain inner h) := by
  rw [chain, List.map_append, compose_append, chain, chain]

/-- The layers of an application in their usual order. -/
theorem chain_standard (h : Handler σ) :
    chain [.panics, .logger, .errors, .metrics] h = compose standard h := rfl

/-- The state in which layers start what they wrap. -/
def entered (c : Context) (r : Request) (layers : List StandardLayer) (x : Exchange σ) :
    Exchange σ :=
  layers.foldl (fun y l => l.enter c r y) x

/-- What layers make of the outcome of what they wrap. -/
def turned (layers : List StandardLayer) (outcome : Except Failure Response) :
    Except Failure Response :=
  layers.foldr StandardLayer.turn outcome

/-- What layers make of the run of what they wrap: the outcome that they turn it into, and the
state in which they leave. -/
def through (c : Context) (r : Request) (layers : List StandardLayer)
    (run : Except Failure Response × Exchange σ) : Except Failure Response × Exchange σ :=
  layers.foldr (fun l inner => (l.turn inner.1, l.leave c r inner.1 inner.2)) run

section Chains

variable (c : Context) (r : Request) (outer inner layers : List StandardLayer)
  (outcome : Except Failure Response) (run : Except Failure Response × Exchange σ) (x : Exchange σ)

@[simp] theorem turned_nil : turned [] outcome = outcome := rfl

@[simp] theorem turned_cons (l : StandardLayer) :
    turned (l :: layers) outcome = l.turn (turned layers outcome) := rfl

theorem turned_append : turned (outer ++ inner) outcome = turned outer (turned inner outcome) :=
  List.foldr_append

theorem entered_append :
    entered c r (outer ++ inner) x = entered c r inner (entered c r outer x) := List.foldl_append

theorem through_fst : (through c r layers run).1 = turned layers run.1 := by
  induction layers with
  | nil => rfl
  | cons l layers ih =>
    show l.turn (through c r layers run).1 = l.turn (turned layers run.1)
    rw [ih]

variable {c r} (hcontext : r.context = some c) (hmetered : r.metered = true)

include hcontext hmetered in
/-- A chain around anything: what it does depends on the inside only through the run of the inside,
and where this starts does not depend on the inside. -/
theorem exec_chain (h : Handler σ) :
    exec (chain layers h r) x = through c r layers (exec (h r) (entered c r layers x)) := by
  induction layers generalizing x with
  | nil => rfl
  | cons l layers ih =>
    rw [chain_cons, StandardLayer.exec_layer hcontext hmetered l (chain layers h) x, ih]
    rfl

end Chains

/-! ### Rises of the metrics -/

/-- How far the metrics rise. -/
@[ext] structure Rise where
  requests : Int
  errors : Int
  panics : Int
  inFlight : Int
  deriving DecidableEq, Repr

namespace Rise

instance : Zero Rise := ⟨⟨0, 0, 0, 0⟩⟩

instance : Add Rise :=
  ⟨fun a b => ⟨a.requests + b.requests, a.errors + b.errors, a.panics + b.panics,
    a.inFlight + b.inFlight⟩⟩

variable (a b d : Rise)

@[simp] theorem requests_zero : (0 : Rise).requests = 0 := rfl
@[simp] theorem errors_zero : (0 : Rise).errors = 0 := rfl
@[simp] theorem panics_zero : (0 : Rise).panics = 0 := rfl
@[simp] theorem inFlight_zero : (0 : Rise).inFlight = 0 := rfl

@[simp] theorem requests_add : (a + b).requests = a.requests + b.requests := rfl
@[simp] theorem errors_add : (a + b).errors = a.errors + b.errors := rfl
@[simp] theorem panics_add : (a + b).panics = a.panics + b.panics := rfl
@[simp] theorem inFlight_add : (a + b).inFlight = a.inFlight + b.inFlight := rfl

theorem add_zero : a + 0 = a :=
  Rise.ext (Int.add_zero _) (Int.add_zero _) (Int.add_zero _) (Int.add_zero _)

theorem add_assoc : a + b + d = a + (b + d) :=
  Rise.ext (Int.add_assoc _ _ _) (Int.add_assoc _ _ _) (Int.add_assoc _ _ _) (Int.add_assoc _ _ _)

/-- How far the metrics rise between two states. -/
def between (x y : Exchange σ) : Rise :=
  ⟨y.metrics.requests - x.metrics.requests, y.metrics.errors - x.metrics.errors,
    y.metrics.panics - x.metrics.panics, y.metrics.inFlight - x.metrics.inFlight⟩

end Rise

/-- What a layer adds to the metrics, after the outcome of what it wraps. -/
def StandardLayer.toll : StandardLayer → Except Failure Response → Rise
  | panics, outcome => ⟨0, 0, (isPanic outcome).toNat, 0⟩
  | metrics, outcome => ⟨1, (isError outcome).toNat, 0, 0⟩
  | logger, _ => 0
  | errors, _ => 0

/-- What layers add to the metrics: each of them sees the outcome as the layers inside it have
turned it. -/
def tolls : List StandardLayer → Except Failure Response → Rise
  | [], _ => 0
  | l :: layers, outcome => tolls layers outcome + l.toll (turned layers outcome)

section Rises

variable (c : Context) (r : Request) (outcome : Except Failure Response) (x y : Exchange σ)

/-- What a layer takes before what it wraps it gives back afterwards, but for its toll. -/
theorem between_leave (l : StandardLayer) :
    Rise.between x (l.leave c r outcome y) =
      Rise.between (l.enter c r x) y + l.toll outcome := by
  cases l with
  | panics =>
    rcases outcome with (e | p) | a
    · exact (Rise.add_zero _).symm
    · ext <;> simp [Rise.between, StandardLayer.leave, StandardLayer.enter, StandardLayer.toll,
        Exchange.counting, Metrics.addPanic, isPanic]
      omega
    · exact (Rise.add_zero _).symm
  | logger =>
    rw [StandardLayer.toll, Rise.add_zero]
    rcases outcome with (e | p) | a <;> rfl
  | errors =>
    rw [StandardLayer.toll, Rise.add_zero]
    rcases outcome with (e | p) | a <;> rfl
  | metrics =>
    rcases outcome with (e | p) | a <;> ext <;>
      simp [Rise.between, StandardLayer.leave, StandardLayer.enter, StandardLayer.toll,
        Exchange.counting, Metrics.addError, Metrics.leave, Metrics.addRequest, Metrics.enter,
        isError] <;> omega

theorem tolls_append (outer inner : List StandardLayer) :
    tolls (outer ++ inner) outcome = tolls inner outcome + tolls outer (turned inner outcome) := by
  induction outer with
  | nil => exact (Rise.add_zero _).symm
  | cons l outer ih =>
    show tolls (outer ++ inner) outcome + l.toll (turned (outer ++ inner) outcome) = _
    rw [ih, turned_append, Rise.add_assoc]
    rfl

/-- Whatever becomes of the outcome on its way, every layer that counts requests counts one. -/
theorem requests_tolls (layers : List StandardLayer) :
    (tolls layers outcome).requests = layers.count .metrics := by
  induction layers with
  | nil => rfl
  | cons l layers ih =>
    rw [tolls, Rise.requests_add, ih]
    cases l <;> simp [StandardLayer.toll]

/-- Whatever becomes of the outcome on its way, every layer lets go of the request. -/
theorem inFlight_tolls (layers : List StandardLayer) : (tolls layers outcome).inFlight = 0 := by
  induction layers with
  | nil => rfl
  | cons l layers ih =>
    rw [tolls, Rise.inFlight_add, ih]
    cases l <;> rfl

/-- What a chain adds to the metrics: as far as its inside makes them rise, and the tolls. -/
theorem between_through (layers : List StandardLayer)
    (run : Except Failure Response × Exchange σ) :
    Rise.between x (through c r layers run).2 =
      Rise.between (entered c r layers x) run.2 + tolls layers run.1 := by
  induction layers generalizing x with
  | nil => exact (Rise.add_zero _).symm
  | cons l layers ih =>
    show Rise.between x (l.leave c r (through c r layers run).1 (through c r layers run).2) = _
    rw [between_leave, ih, through_fst, Rise.add_assoc]
    rfl

end Rises

/-! ### Outcomes that pass unchanged -/

/-- An outcome that none of these layers changes. -/
def Steady (layers : List StandardLayer) (outcome : Except Failure Response) : Prop :=
  ∀ l ∈ layers, l.turn outcome = outcome

section Steady

variable {layers : List StandardLayer} {e : Error} {p : Panic}

theorem steady_ok (a : Response) : Steady layers (.ok a) := by
  intro l _
  cases l <;> rfl

theorem steady_of_isFatal (h : e.isFatal = true) : Steady layers (.error (.error e)) := by
  intro l _
  cases l with
  | errors => rw [StandardLayer.turn, h, if_pos rfl]
  | _ => rfl

theorem steady_error (h : .errors ∉ layers) : Steady layers (.error (.error e)) := by
  intro l hl
  cases l with
  | errors => exact absurd hl h
  | _ => rfl

theorem steady_panic (h : .panics ∉ layers) : Steady layers (.error (.panic p)) := by
  intro l hl
  cases l with
  | panics => exact absurd hl h
  | _ => rfl

variable {outcome : Except Failure Response}

theorem Steady.turned_eq (h : Steady layers outcome) : turned layers outcome = outcome := by
  induction layers with
  | nil => rfl
  | cons l layers ih =>
    rw [turned_cons, ih fun m hm => h m (List.mem_cons_of_mem _ hm)]
    exact h l List.mem_cons_self

/-- Every layer that counts sees an outcome that none of them changes. -/
theorem Steady.tolls_eq (h : Steady layers outcome) :
    tolls layers outcome =
      ⟨layers.count .metrics, (isError outcome).toNat * layers.count .metrics,
        (isPanic outcome).toNat * layers.count .panics, 0⟩ := by
  induction layers with
  | nil => rfl
  | cons l layers ih =>
    have hinner : Steady layers outcome := fun m hm => h m (List.mem_cons_of_mem _ hm)
    rw [tolls, ih hinner, hinner.turned_eq]
    cases l with
    | logger => exact Rise.add_zero _
    | errors => exact Rise.add_zero _
    | panics => ext <;> simp [StandardLayer.toll, Int.mul_add]
    | metrics => ext <;> simp [StandardLayer.toll, Int.mul_add]

/-- One layer changes an outcome to another that no layer around it changes. -/
theorem turned_turning {outer inner : List StandardLayer} {l : StandardLayer}
    {outcome' : Except Failure Response} (hinner : Steady inner outcome)
    (hturn : l.turn outcome = outcome') (houter : Steady outer outcome') :
    turned (outer ++ l :: inner) outcome = outcome' := by
  rw [turned_append, turned_cons, hinner.turned_eq, hturn, houter.turned_eq]

/-- The layers inside the one that changes an outcome count it as it was, the layers around it as
it is then. -/
theorem tolls_turning {outer inner : List StandardLayer} {l : StandardLayer}
    {outcome' : Except Failure Response} (hinner : Steady inner outcome)
    (hturn : l.turn outcome = outcome') :
    tolls (outer ++ l :: inner) outcome =
      tolls inner outcome + l.toll outcome + tolls outer outcome' := by
  rw [tolls_append, turned_cons, hinner.turned_eq, hturn, tolls, hinner.turned_eq]

end Steady

/-! ### The accounts -/

/-- What layers make of an outcome and how they count it, given how far the metrics rise inside
them on their own. -/
structure Accounted (layers : List StandardLayer) (outcome result : Except Failure Response)
    (own total : Rise) : Prop where
  requests : total.requests = own.requests + layers.count .metrics
  inFlight : total.inFlight = own.inFlight
  answered : ∀ a, outcome = .ok a →
    result = .ok a ∧ total.errors = own.errors ∧ total.panics = own.panics
  /-- An error that does not stop the service is answered by the innermost layer that answers
  errors. -/
  converted : ∀ e outer inner, outcome = .error (.error e) → e.isFatal = false →
    layers = outer ++ .errors :: inner → .errors ∉ inner →
      result = .ok (answerOf outcome) ∧ total.errors = own.errors + inner.count .metrics ∧
        total.panics = own.panics
  unconverted : ∀ e, outcome = .error (.error e) → e.isFatal = false → .errors ∉ layers →
    result = .error (.error e) ∧ total.errors = own.errors + layers.count .metrics ∧
      total.panics = own.panics
  /-- No layer answers an error that stops the service. -/
  fatal : ∀ e, outcome = .error (.error e) → e.isFatal = true →
    result = .error (.error e) ∧ total.errors = own.errors + layers.count .metrics ∧
      total.panics = own.panics
  /-- A panic becomes an error at the innermost layer that recovers from panics. -/
  recovered : ∀ p outer inner, outcome = .error (.panic p) →
    layers = outer ++ .panics :: inner → .panics ∉ inner →
      result = .error (.error (.panic p.message true)) ∧
        total.errors = own.errors + outer.count .metrics ∧ total.panics = own.panics + 1
  unrecovered : ∀ p, outcome = .error (.panic p) → .panics ∉ layers →
    result = .error (.panic p) ∧ total.errors = own.errors ∧ total.panics = own.panics

/-- The accounts follow from what layers turn an outcome into and from their tolls. -/
theorem accounted_of_tolls (layers : List StandardLayer) (outcome : Except Failure Response)
    (own : Rise) :
    Accounted layers outcome (turned layers outcome) own (own + tolls layers outcome) where
  requests := by rw [Rise.requests_add, requests_tolls]
  inFlight := by rw [Rise.inFlight_add, inFlight_tolls, Int.add_zero]
  answered := by
    rintro a rfl
    have hsteady : Steady layers (.ok a) := steady_ok a
    rw [hsteady.turned_eq, hsteady.tolls_eq]
    simp [isError, isPanic]
  converted := by
    rintro e outer inner rfl hfatal rfl hinner
    have hturn : StandardLayer.turn .errors (.error (.error e)) =
        .ok (answerOf (.error (.error e))) := by
      rw [StandardLayer.turn, hfatal]
      rfl
    have hsteady : Steady inner (.error (.error e)) := steady_error hinner
    have hanswered : Steady outer (.ok (answerOf (.error (.error e)))) := steady_ok _
    rw [turned_turning hsteady hturn hanswered, tolls_turning hsteady hturn,
      hsteady.tolls_eq, hanswered.tolls_eq]
    simp [isError, isPanic, StandardLayer.toll]
  unconverted := by
    rintro e rfl - hnone
    have hsteady : Steady layers (.error (.error e)) := steady_error hnone
    rw [hsteady.turned_eq, hsteady.tolls_eq]
    simp [isError, isPanic]
  fatal := by
    rintro e rfl hfatal
    have hsteady : Steady layers (.error (.error e)) := steady_of_isFatal hfatal
    rw [hsteady.turned_eq, hsteady.tolls_eq]
    simp [isError, isPanic]
  recovered := by
    rintro p outer inner rfl rfl hinner
    have hsteady : Steady inner (.error (.panic p)) := steady_panic hinner
    -- What a panic is turned into stops the service, so that no further layer answers it.
    have hfatal : Steady outer (.error (.error (.panic p.message true))) := steady_of_isFatal rfl
    have hturn : StandardLayer.turn .panics (.error (.panic p)) =
        .error (.error (.panic p.message true)) := rfl
    rw [turned_turning hsteady hturn hfatal, tolls_turning hsteady hturn, hsteady.tolls_eq,
      hfatal.tolls_eq]
    simp [isError, isPanic, StandardLayer.toll, List.count_eq_zero.2 hinner]
  unrecovered := by
    rintro p rfl hnone
    have hsteady : Steady layers (.error (.panic p)) := steady_panic hnone
    rw [hsteady.turned_eq, hsteady.tolls_eq]
    simp [isError, isPanic, List.count_eq_zero.2 hnone]

/-- What the inner layers of a chain come to around a handler, where the outer layers start
them. -/
def within (c : Context) (r : Request) (h : Handler σ) (outer inner : List StandardLayer)
    (x : Exchange σ) : Except Failure Response × Exchange σ :=
  exec (chain inner h r) (entered c r outer x)

/-- The accounts of every chain: the standard layers in any order, each as often as may be, around
any handler, for a request that has begun and carries the metrics. Every inner part of the chain
keeps the same accounts, where the layers around it start it. -/
theorem accounted_chain {c : Context} {r : Request} (hcontext : r.context = some c)
    (hmetered : r.metered = true) (h : Handler σ) (x : Exchange σ) (layers : List StandardLayer) :
    let run := exec (h r) (entered c r layers x)
    let own := Rise.between (entered c r layers x) run.2
    let result := exec (chain layers h r) x
    Accounted layers run.1 result.1 own (Rise.between x result.2) ∧
      ∀ outer inner, layers = outer ++ inner →
        let part := within c r h outer inner x
        result = through c r outer part ∧
          Accounted inner run.1 part.1 own (Rise.between (entered c r outer x) part.2) := by
  have hpart (outer inner : List StandardLayer) :
      let run := exec (h r) (entered c r (outer ++ inner) x)
      let part := within c r h outer inner x
      Accounted inner run.1 part.1 (Rise.between (entered c r (outer ++ inner) x) run.2)
        (Rise.between (entered c r outer x) part.2) := by
    intro run part
    have hrun : part = through c r inner run := by
      show exec (chain inner h r) (entered c r outer x) = _
      rw [exec_chain inner _ hcontext hmetered h, ← entered_append]
    rw [hrun, through_fst, between_through, ← entered_append]
    exact accounted_of_tolls inner run.1 _
  refine ⟨hpart [] layers, ?_⟩
  rintro outer inner rfl
  refine ⟨?_, hpart outer inner⟩
  rw [chain_append]
  exact exec_chain outer x hcontext hmetered (chain inner h)

/-- A request that has begun and carries the metrics. -/
def sampleBegun : Request := ⟨sampleRequest "GET", .read [], some ⟨.nil, .ofSeconds 0⟩, true, none⟩

/-- Layers out of their usual order, with one of them repeated. -/
def sampleLayers : List StandardLayer := [.metrics, .panics, .errors, .metrics, .logger]

/-- A panic passes the inner layer that counts as a panic, and the outer one as an error. -/
theorem accounted_chain_falling :
    sampleBegun.context = some ⟨.nil, .ofSeconds 0⟩ ∧ sampleBegun.metered = true ∧
      (exec (falling sampleBegun)
        (entered ⟨.nil, .ofSeconds 0⟩ sampleBegun sampleLayers
          (opened sampleSite (.ofSeconds 0)))).1 = .error (.panic .other) ∧
      (exec (chain sampleLayers falling sampleBegun) (opened sampleSite (.ofSeconds 0))).1 =
        .error (.error (.panic "unknown panic payload" true)) ∧
      Rise.between (opened sampleSite (.ofSeconds 0))
        (exec (chain sampleLayers falling sampleBegun) (opened sampleSite (.ofSeconds 0))).2 =
          ⟨2, 1, 1, 0⟩ := by
  obtain ⟨haccounted, -⟩ := accounted_chain (c := ⟨.nil, .ofSeconds 0⟩) (r := sampleBegun) rfl rfl
    falling (opened sampleSite (.ofSeconds 0)) sampleLayers
  obtain ⟨hresult, herrors, hpanics⟩ := haccounted.recovered .other [.metrics]
    [.errors, .metrics, .logger] rfl rfl (by decide)
  refine ⟨rfl, rfl, rfl, hresult, ?_⟩
  exact Rise.ext haccounted.requests herrors hpanics haccounted.inFlight

end AccountService.Pipeline
