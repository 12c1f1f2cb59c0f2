import AccountService.Pipeline.App

/-!
# What actions come to

An action takes a state to a result and a further state. Each building block of handlers and
layers has one law that says to which, so that no later proof has to look into the monad.

## Main definitions

* `Pipeline.exec` — the result and the state that an action comes to
* `Pipeline.Exchange.logging`, `Pipeline.Exchange.counting`, `Pipeline.Exchange.recording`,
  `Pipeline.Exchange.signalling` — the ways in which the pipeline itself changes the state
* `Pipeline.opened` — the state in which a request begins

## Main statements

* `Pipeline.exec_bind`, `Pipeline.exec_tryCatch`, `Pipeline.exec_attempt` — one action after
  another, and what becomes of its failure
-/

namespace AccountService.Pipeline

open Http

variable {σ α β : Type}

/-- The result and the state that an action comes to. -/
def exec (a : Action σ α) (x : Exchange σ) : Except Failure α × Exchange σ := a.run x

/-! ### Changes of the state by the pipeline -/

namespace Exchange

/-- The state with one more event. -/
def logging (e : Log.Event) (x : Exchange σ) : Exchange σ := { x with logged := e :: x.logged }

/-- The state with changed metrics. -/
def counting (f : Metrics → Metrics) (x : Exchange σ) : Exchange σ :=
  { x with metrics := f x.metrics }

/-- The state with a status recorded for the answer. -/
def recording (s : Status) (x : Exchange σ) : Exchange σ := { x with status := some s }

/-- The state with the signal raised; the first time leaves a warning. -/
def signalling (x : Exchange σ) : Exchange σ :=
  if x.signalled then x else logging Shutdown.warning { x with signalled := true }

variable (x : Exchange σ) (e : Log.Event) (f : Metrics → Metrics) (s : Status)

@[simp] theorem world_logging : (x.logging e).world = x.world := rfl
@[simp] theorem world_counting : (x.counting f).world = x.world := rfl
@[simp] theorem world_recording : (x.recording s).world = x.world := rfl
@[simp] theorem world_signalling : x.signalling.world = x.world := by
  unfold signalling
  split <;> rfl

@[simp] theorem clock_logging : (x.logging e).clock = x.clock := rfl
@[simp] theorem clock_counting : (x.counting f).clock = x.clock := rfl

end Exchange

/-! ### Building blocks -/

variable (x : Exchange σ)

@[simp] theorem exec_pure (v : α) : exec (pure v : Action σ α) x = (.ok v, x) := rfl

theorem exec_bind (a : Action σ α) (f : α → Action σ β) :
    exec (a >>= f) x =
      match exec a x with
      | (.ok v, y) => exec (f v) y
      | (.error e, y) => (.error e, y) := by
  simp only [exec, ExceptT.run, bind, ExceptT.bind, ExceptT.mk, StateT.bind]
  cases a x with
  | mk r y => cases r <;> rfl

theorem exec_map (f : α → β) (a : Action σ α) :
    exec (f <$> a) x =
      match exec a x with
      | (.ok v, y) => (.ok (f v), y)
      | (.error e, y) => (.error e, y) := by
  rw [← bind_pure_comp, exec_bind]
  rcases exec a x with ⟨_ | v, y⟩ <;> rfl

@[simp] theorem exec_get : exec (get : Action σ (Exchange σ)) x = (.ok x, x) := rfl

@[simp] theorem exec_set (y : Exchange σ) : exec (set y : Action σ PUnit) x = (.ok ⟨⟩, y) := rfl

@[simp] theorem exec_fail (e : Error) : exec (fail e : Action σ α) x = (.error (.error e), x) := rfl

@[simp] theorem exec_panic (p : Panic) : exec (panic p : Action σ α) x = (.error (.panic p), x) :=
  rfl

@[simp] theorem exec_log (e : Log.Event) : exec (log e : Action σ Unit) x = (.ok (), x.logging e) :=
  rfl

@[simp] theorem exec_count (f : Metrics → Metrics) :
    exec (count f : Action σ Unit) x = (.ok (), x.counting f) := rfl

@[simp] theorem exec_recordStatus (s : Status) :
    exec (recordStatus s : Action σ Unit) x = (.ok (), x.recording s) := rfl

@[simp] theorem exec_signalShutdown :
    exec (signalShutdown : Action σ Unit) x = (.ok (), x.signalling) := by
  unfold signalShutdown Exchange.signalling
  rw [exec_bind, exec_get]
  cases h : x.signalled with
  | false => simp only [h]; rfl
  | true => simp only [h]; rfl

theorem exec_tryCatch (a : Action σ α) (h : Failure → Action σ α) :
    exec (tryCatch a h) x =
      match exec a x with
      | (.ok v, y) => (.ok v, y)
      | (.error e, y) => exec (h e) y := by
  simp only [exec, ExceptT.run, tryCatch, tryCatchThe, MonadExceptOf.tryCatch, ExceptT.tryCatch,
    ExceptT.mk, bind, StateT.bind]
  cases a x with
  | mk r y => cases r <;> rfl

theorem exec_attempt (a : Action σ α) :
    exec (attempt a) x =
      match exec a x with
      | (.ok v, y) => (.ok (.ok v), y)
      | (.error (.error e), y) => (.ok (.error e), y)
      | (.error (.panic p), y) => (.error (.panic p), y) := by
  rw [attempt, exec_tryCatch, ← bind_pure_comp, exec_bind]
  rcases exec a x with ⟨_ | v, y⟩
  · next f => cases f <;> rfl
  · rfl

/-! ### Requests -/

/-- The state in which a request begins. -/
def opened (site : Site σ) (clock : Instant) : Exchange σ := ⟨site, clock, none, []⟩

theorem run_eq (site : Site σ) (clock : Instant) (a : Action σ α) :
    site.run clock a =
      ((exec a (opened site clock)).1, (exec a (opened site clock)).2.toSite,
        (exec a (opened site clock)).2.logged.reverse) := rfl

end AccountService.Pipeline
