import AccountService.Proofs.Pipeline.Exec
import AccountService.Pipeline.Layers

/-!
# Two runs side by side

Two actions are run from states that are related in some way. They are paired if they come to the
same failure or to results that are related, and leave states that are related again. Paired
actions can be put one after another, so that two runs of a handler are paired if its parts are.

## Main definitions

* `Pipeline.Paired` — actions that come to the same from related states
* `Pipeline.Siblings` — requests that differ only in what they are known by

## Main statements

* `Pipeline.Paired.bind` — one action after another
* `Pipeline.paired_respond` — the usual answer
* `Pipeline.paired_authenticate`, `Pipeline.paired_authorize` — the layers of routes
-/

namespace AccountService.Pipeline

open Http

variable {σ τ α β γ δ : Type}

/-- Two actions, run from states that satisfy `pre`, come either to results that satisfy `post` with
the states in which they leave, or to the same failure in states that satisfy `rest`. -/
def Paired (pre rest : Exchange σ → Exchange τ → Prop) (a : Action σ α) (b : Action τ β)
    (post : α → β → Exchange σ → Exchange τ → Prop) : Prop :=
  ∀ x y, pre x y →
    (∃ v w, (exec a x).1 = .ok v ∧ (exec b y).1 = .ok w ∧ post v w (exec a x).2 (exec b y).2) ∨
      ∃ f, (exec a x).1 = .error f ∧ (exec b y).1 = .error f ∧ rest (exec a x).2 (exec b y).2

variable {pre rest : Exchange σ → Exchange τ → Prop}

/-! ### Building blocks -/

section Blocks

variable {post : α → β → Exchange σ → Exchange τ → Prop}

theorem paired_pure {v : α} {w : β} (h : ∀ x y, pre x y → post v w x y) :
    Paired pre rest (pure v) (pure w) post :=
  fun x y hpre => .inl ⟨v, w, rfl, rfl, h x y hpre⟩

theorem paired_fail (e : Error) (h : ∀ x y, pre x y → rest x y) :
    Paired pre rest (fail e : Action σ α) (fail e : Action τ β) post :=
  fun x y hpre => .inr ⟨.error e, rfl, rfl, h x y hpre⟩

/-- The states that are read are related, and so are those in which the runs go on. -/
theorem paired_get :
    Paired pre rest get get fun v w x y => pre v w ∧ pre x y :=
  fun x y hpre => .inl ⟨x, y, rfl, rfl, hpre, hpre⟩

theorem paired_set {post : Exchange σ → Exchange τ → Prop} {x : Exchange σ} {y : Exchange τ}
    (h : post x y) : Paired pre rest (set x) (set y) fun _ _ => post :=
  fun _ _ _ => .inl ⟨⟨⟩, ⟨⟩, rfl, rfl, h⟩

theorem paired_log {post : Exchange σ → Exchange τ → Prop} (e e' : Log.Event)
    (h : ∀ x y, pre x y → post (x.logging e) (y.logging e')) :
    Paired pre rest (log e) (log e') fun _ _ => post :=
  fun x y hpre => .inl ⟨(), (), rfl, rfl, h x y hpre⟩

/-- One action after another. -/
theorem Paired.bind {a : Action σ α} {b : Action τ β} {f : α → Action σ γ} {g : β → Action τ δ}
    {post' : γ → δ → Exchange σ → Exchange τ → Prop} (hab : Paired pre rest a b post)
    (hfg : ∀ v w, Paired (post v w) rest (f v) (g w) post') :
    Paired pre rest (a >>= f) (b >>= g) post' := by
  intro x y hpre
  rw [exec_bind, exec_bind]
  have hfirst := hab x y hpre
  generalize exec a x = run at hfirst ⊢
  generalize exec b y = run' at hfirst ⊢
  obtain ⟨outcome, x'⟩ := run
  obtain ⟨outcome', y'⟩ := run'
  obtain ⟨v, w, rfl, rfl, hpost⟩ | ⟨failure, rfl, rfl, hrest⟩ := hfirst
  · exact hfg v w x' y' hpost
  · exact .inr ⟨failure, rfl, rfl, hrest⟩

/-- What is known of results does not depend on the states. -/
theorem Paired.of_and {P : Prop} {a : Action σ α} {b : Action τ β}
    (h : P → Paired pre rest a b post) : Paired (fun x y => P ∧ pre x y) rest a b post :=
  fun x y hxy => h hxy.1 x y hxy.2

/-- The states in which two actions start may be related in more ways than are needed. -/
theorem Paired.of_pre {pre' : Exchange σ → Exchange τ → Prop} {a : Action σ α} {b : Action τ β}
    (h : Paired pre rest a b post) (hpre : ∀ x y, pre' x y → pre x y) :
    Paired pre' rest a b post :=
  fun x y hxy => h x y (hpre x y hxy)

end Blocks

/-- Two runs end with one answer, in related states. -/
def Same (rest : Exchange σ → Exchange τ → Prop) (a b : Response) (x : Exchange σ)
    (y : Exchange τ) : Prop :=
  a = b ∧ rest x y

/-- The usual answer to two requests, as long as its status may be recorded. -/
theorem paired_respond (data : Option Json) (status : Status)
    (h : ∀ x y, pre x y → rest (x.recording status) (y.recording status)) :
    Paired pre rest (respond data status) (respond data status) (Same rest) := by
  intro x y hpre
  simp only [respond, exec_bind, exec_recordStatus]
  cases answer data status with
  | ok a => exact .inl ⟨a, a, rfl, rfl, rfl, h x y hpre⟩
  | error e => exact .inr ⟨.error e, rfl, rfl, h x y hpre⟩

/-! ### Requests -/

/-- Two requests that have begun and differ only in what they are known by. -/
structure Siblings (r r' : Request) : Prop where
  incoming : r.incoming = r'.incoming
  params : r.params = r'.params
  claims : r.claims = r'.claims
  begun : ∃ c, r.context = some c
  begun' : ∃ c, r'.context = some c

section Requests

variable {r r' : Request} (hsiblings : Siblings r r')

include hsiblings

theorem Siblings.with_claims (claims : Auth.Claims) :
    Siblings { r with claims := some claims } { r' with claims := some claims } :=
  { hsiblings with claims := rfl }

theorem paired_getContext :
    Paired pre rest (r.getContext : Action σ Context) (r'.getContext : Action τ Context)
      fun _ _ => pre := by
  obtain ⟨c, hc⟩ := hsiblings.begun
  obtain ⟨c', hc'⟩ := hsiblings.begun'
  rw [Request.getContext, Request.getContext, hc, hc']
  exact paired_pure fun _ _ hpre => hpre

variable {next : Handler σ} {next' : Handler τ} {post : Response → Response → Exchange σ →
  Exchange τ → Prop}

/-- Authentication of two requests over the same keys and by the same clock. -/
theorem paired_authenticate (engine : Auth.Engine) (keys : σ → Auth.KeyStore)
    (keys' : τ → Auth.KeyStore)
    (hkeys : ∀ x y, pre x y → keys x.world = keys' y.world ∧ x.clock = y.clock)
    (hlogging : ∀ x y e e', pre x y → pre (x.logging e) (y.logging e'))
    (hrest : ∀ x y, pre x y → rest x y)
    (hnext : ∀ q q', Siblings q q' → Paired pre rest (next q) (next' q') post) :
    Paired pre rest (authenticate engine keys next r) (authenticate engine keys' next' r') post := by
  rw [authenticate, authenticate, ← hsiblings.incoming]
  cases Auth.bearerToken r.incoming.headers with
  | error e => exact paired_fail _ hrest
  | ok token =>
    apply paired_get.bind
    intro x y
    apply Paired.of_and
    intro hpre
    -- The verdict on the token is settled by what the two states have in common.
    obtain ⟨hworld, hclock⟩ := hkeys x y hpre
    rw [← hworld, ← hclock]
    cases engine.accept (keys x.world) x.clock token with
    | error e =>
      exact (paired_log _ _ fun x y => hlogging x y _ _).bind fun _ _ => paired_fail _ hrest
    | ok accepted =>
      exact (paired_log _ _ fun x y => hlogging x y _ _).bind fun _ _ =>
        hnext _ _ { hsiblings.with_claims accepted.2 with incoming := rfl }

/-- The check of a role in two requests by the same sender. -/
theorem paired_authorize (role : String) (hrest : ∀ x y, pre x y → rest x y)
    (hnext : Paired pre rest (next r) (next' r') post) :
    Paired pre rest (authorize role next r) (authorize role next' r') post := by
  rw [authorize, authorize, ← hsiblings.claims]
  cases r.claims with
  | none => exact paired_fail _ hrest
  | some claims =>
    dsimp only
    cases Auth.ensureRole claims role with
    | error f => exact paired_fail _ hrest
    | ok _ => exact hnext

end Requests

end AccountService.Pipeline
