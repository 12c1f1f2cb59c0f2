import AccountService.Proofs.Service.Handlers
import AccountService.Proofs.Service.Routes

/-!
# What a request to the service comes to

A request for a resource that answers its method is served inside the standard layers, as soon
as the clock can be read. Everything else is answered, or ends, before any handler is reached.

## Main definitions

* `Api.arriving`, `Api.opening` — a request and the state as the inside of the layers meets them
* `Api.outcome` — what a request comes to inside the layers

## Main statements

* `Api.run_of_answers` — a request that is served
* `Api.run_of_not_answers`, `Api.run_of_no_path`, `Api.run_of_fault` — a request that is not
* `Api.run_cases` — either of them
-/

namespace AccountService.Api

open Http Pipeline

variable {σ : Type}

variable (s : Settings σ) (site : Site (World σ)) (clock now : Instant) (r : Incoming)
  (res : Resource)

/-- A request for a resource as it meets the inside of the layers. -/
def arriving : Request := entering (opened site clock) now r (readParams res.values)

/-- The state in which a request for a resource meets the inside of the layers. -/
def opening : Exchange (World σ) :=
  begun (contextOf (opened site clock) now) (arriving site clock now r res)
    (drawn (opened site clock))

/-- What a request for a resource comes to inside the layers. -/
def outcome : Except Failure Response × Exchange (World σ) :=
  exec (res.endpoint.inner s (arriving site clock now r res)) (opening site clock now r res)

@[simp] theorem world_opening : (opening site clock now r res).world = site.world := rfl

@[simp] theorem clock_opening : (opening site clock now r res).clock = clock := rfl

@[simp] theorem headers_arriving :
    (arriving site clock now r res).incoming.headers = r.headers := rfl

theorem context_arriving :
    (arriving site clock now r res).context = some (contextOf (opened site clock) now) := rfl

/-- A parameter that is no text spoils the parameters of its route. -/
theorem readParams_of_decodeValue_eq_none {name : String} {value : List Char}
    (h : decodeValue value = none) : readParams [(name, value)] = .unreadable := by
  simp [readParams, h]

/-- A request has the parameter of its route exactly if the path can be read there. -/
theorem reads_iff_of_params {q : Request} {name : String} {value : List Char} {text : String}
    (hparams : q.params = readParams [(name, value)]) :
    Reads q name text ↔ decodeValue value = some text := by
  cases h : decodeValue value with
  | none =>
    refine iff_of_false ?_ (by simp)
    rintro ⟨params, key, hread, _⟩
    rw [hparams, readParams_of_decodeValue_eq_none h] at hread
    cases hread
  | some value' =>
    have hread : readParams [(name, value)] = .read [(name, value')] := by simp [readParams, h]
    have hfind : [(name, value')].find? (·.1 == name) = some (name, value') := by simp
    constructor
    · rintro ⟨params, key, hparams', hfound⟩
      rw [hparams, hread] at hparams'
      cases hparams'
      cases hfind.symm.trans hfound
      rfl
    · intro hvalue
      cases hvalue
      exact ⟨_, name, hparams.trans hread, hfind⟩

section Run

variable {now r res} (hproper : res.Proper) (hpath : r.path.toList = res.path)

include hproper hpath

/-- A request that a resource answers is sent the answer that its outcome deserves. -/
theorem run_of_answers (hanswers : res.Answers r.method) (hclock : Clock.read clock = .ok now) :
    (site.run clock ((application s).serve r)).1 =
        .ok ((answerOf (outcome s site clock now r res).1).sentFor r.method) ∧
      (site.run clock ((application s).serve r)).2.1.world =
        (outcome s site clock now r res).2.world := by
  have hserve := exec_serveRoute (res.endpoint.inner s) r (readParams res.values)
    (x := opened site clock) hclock
  have hfind := find_of_path s hproper hpath r.method
  rw [if_pos hanswers] at hfind
  simp only [run_eq, App.serve, hfind, exec_bind, hserve]
  exact ⟨rfl, by simp only [exec_pure, world_escape, world_settle]; rfl⟩

/-- To the method `GET` an answer is sent as it is. -/
theorem run_of_get (hget : res.endpoint.method = "GET") (hmethod : r.method = "GET")
    (hclock : Clock.read clock = .ok now) :
    (site.run clock ((application s).serve r)).1 =
      .ok (answerOf (outcome s site clock now r res).1) := by
  obtain ⟨hresult, -⟩ :=
    run_of_answers s site clock hproper hpath (.inl (hmethod.trans hget.symm)) hclock
  rwa [hmethod, sentFor_eq_self (by decide) (by decide)] at hresult

/-- A request that a resource does not answer. -/
theorem run_of_not_answers (hanswers : ¬ res.Answers r.method) :
    (site.run clock ((application s).serve r)).1 =
        .ok ⟨.methodNotAllowed, [("allow", allowed [res.endpoint.method])], ""⟩ ∧
      (site.run clock ((application s).serve r)).2.1 = site := by
  have hfind := find_of_path s hproper hpath r.method
  rw [if_neg hanswers] at hfind
  simp only [run_eq, App.serve, hfind]
  exact ⟨rfl, rfl⟩

/-- A request that a resource would answer while the clock cannot be read. -/
theorem run_of_fault {message : String} (hanswers : res.Answers r.method)
    (hclock : Clock.read clock = .error message) :
    (site.run clock ((application s).serve r)).1 = .error (.panic (.text message)) ∧
      (site.run clock ((application s).serve r)).2.1.world = site.world := by
  have hserve := exec_serveRoute_of_fault r (readParams res.values)
    (compose standard (res.endpoint.inner s)) (x := opened site clock) hclock
  have hfind := find_of_path s hproper hpath r.method
  rw [if_pos hanswers] at hfind
  constructor
  · simp only [run_eq, App.serve, hfind, exec_bind, hserve]
  · simp only [run_eq, App.serve, hfind, exec_bind, hserve]
    rfl

end Run

/-- A request for nothing that the service has. -/
theorem run_of_no_path {r : Incoming}
    (hpath : ∀ res : Resource, res.Proper → r.path.toList ≠ res.path) :
    (site.run clock ((application s).serve r)).1 = .ok (.ofStatus .notFound) ∧
      (site.run clock ((application s).serve r)).2.1 = site := by
  have hfind := find_of_no_path s hpath r.method
  simp only [run_eq, App.serve, hfind]
  exact ⟨rfl, rfl⟩

/-- A request is served, or it is not answered as a success and the world is as it was. -/
theorem run_cases :
    (∃ res now, res.Proper ∧ r.path.toList = res.path ∧ res.Answers r.method ∧
      Clock.read clock = .ok now ∧
      (site.run clock ((application s).serve r)).1 =
        .ok ((answerOf (outcome s site clock now r res).1).sentFor r.method) ∧
      (site.run clock ((application s).serve r)).2.1.world =
        (outcome s site clock now r res).2.world) ∨
    (∀ a, (site.run clock ((application s).serve r)).1 = .ok a → 400 ≤ a.status.code) ∧
      (site.run clock ((application s).serve r)).2.1.world = site.world := by
  -- There are three ways not to be served: no resource, another method, no clock.
  by_cases hnamed : ∃ res : Resource, res.Proper ∧ r.path.toList = res.path
  · obtain ⟨res, hproper, hpath⟩ := hnamed
    by_cases hanswers : res.Answers r.method
    · cases hclock : Clock.read clock with
      | error message =>
        obtain ⟨hresult, hworld⟩ := run_of_fault s site clock hproper hpath hanswers hclock
        refine .inr ⟨fun a ha => ?_, hworld⟩
        rw [hresult] at ha
        cases ha
      | ok now =>
        exact .inl ⟨res, now, hproper, hpath, hanswers, rfl,
          run_of_answers s site clock hproper hpath hanswers hclock⟩
    · obtain ⟨hresult, hsite⟩ := run_of_not_answers s site clock hproper hpath hanswers
      refine .inr ⟨fun a ha => ?_, congrArg Site.world hsite⟩
      rw [hresult] at ha
      cases ha
      exact of_decide_eq_true rfl
  · have hnone : ∀ res : Resource, res.Proper → r.path.toList ≠ res.path :=
      fun res hproper hpath => hnamed ⟨res, hproper, hpath⟩
    obtain ⟨hresult, hsite⟩ := run_of_no_path s site clock hnone
    refine .inr ⟨fun a ha => ?_, congrArg Site.world hsite⟩
    rw [hresult] at ha
    cases ha
    exact of_decide_eq_true rfl

end AccountService.Api
