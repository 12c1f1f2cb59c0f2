import AccountService.Proofs.Pipeline.Authentication

/-!
# What an action keeps and comes to

An action is judged by a condition on the state that it keeps, by the errors in which it may end,
and by what holds of its result. Actions that are judged so can be put one after another, so that a
handler is judged by its parts, once for all conditions that bear what handlers do to a state.

## Main definitions

* `Pipeline.Ensures` — what an action keeps, how it may fail, and what it comes to
* `Pipeline.Enduring` — conditions that bear what handlers do to a state
* `Pipeline.Responded` — an answer as it is made from a value and a status that is recorded

## Main statements

* `Pipeline.Ensures.bind` — one action after another
* `Pipeline.ensures_respond` — an answer is made of a value, and its status is recorded
* `Pipeline.ensures_authenticate`, `Pipeline.ensures_authorize` — the layers of routes
-/

namespace AccountService.Pipeline

open Http

variable {σ α β : Type}

/-- Wherever a condition on the state holds an action keeps it, and it comes to a result that
satisfies `post` with the state, or to an error that is allowed. It does not end abruptly. -/
def Ensures (inv : Exchange σ → Prop) (allowed : Error → Prop) (a : Action σ α)
    (post : α → Exchange σ → Prop) : Prop :=
  ∀ x, inv x → inv (exec a x).2 ∧
    ((∃ v, (exec a x).1 = .ok v ∧ post v (exec a x).2) ∨
      ∃ e : Error, (exec a x).1 = .error (.error e) ∧ allowed e)

/-- A condition bears what handlers do to a state: they log events of one kind, record a status,
and put another world in its place and draw from the source of random octets. -/
structure Enduring (kind : Log.Event → Prop) (inv : Exchange σ → Prop) : Prop where
  logging : ∀ {x : Exchange σ} {e : Log.Event}, kind e → inv x → inv (x.logging e)
  recording : ∀ {x : Exchange σ} (status : Status), inv x → inv (x.recording status)
  writing : ∀ {x : Exchange σ} (world : σ) (entropy : Entropy), inv x →
    inv { x with world := world, entropy := entropy }

variable {inv : Exchange σ → Prop} {allowed : Error → Prop} {kind : Log.Event → Prop}

/-! ### Building blocks -/

section Blocks

variable {post : α → Exchange σ → Prop}

theorem ensures_pure {v : α} (h : ∀ y, post v y) : Ensures inv allowed (pure v) post :=
  fun x hx => ⟨hx, .inl ⟨v, rfl, h x⟩⟩

theorem ensures_fail {e : Error} (h : allowed e) :
    Ensures inv allowed (fail e : Action σ α) post :=
  fun _ hx => ⟨hx, .inr ⟨e, rfl, h⟩⟩

theorem ensures_get :
    Ensures inv allowed (get : Action σ (Exchange σ)) fun x _ => inv x :=
  fun x hx => ⟨hx, .inl ⟨x, rfl, hx⟩⟩

theorem ensures_set {y : Exchange σ} (h : inv y) :
    Ensures inv allowed (set y : Action σ PUnit) fun _ _ => True :=
  fun _ _ => ⟨h, .inl ⟨⟨⟩, rfl, trivial⟩⟩

theorem ensures_log (h : Enduring kind inv) {e : Log.Event} (he : kind e) :
    Ensures inv allowed (log e : Action σ Unit) fun _ _ => True :=
  fun _ hx => ⟨h.logging he hx, .inl ⟨(), rfl, trivial⟩⟩

/-- One action after another. -/
theorem Ensures.bind {a : Action σ α} {f : α → Action σ β} {post' : β → Exchange σ → Prop}
    (ha : Ensures inv allowed a post)
    (hf : ∀ v y, post v y → Ensures inv allowed (f v) post') :
    Ensures inv allowed (a >>= f) post' := by
  intro x hx
  obtain ⟨hkept, hresult⟩ := ha x hx
  rw [exec_bind]
  generalize exec a x = run at hkept hresult ⊢
  obtain ⟨outcome, y⟩ := run
  obtain ⟨v, rfl, hv⟩ | ⟨e, rfl, he⟩ := hresult
  · exact hf v y hv y hkept
  · exact ⟨hkept, .inr ⟨e, rfl, he⟩⟩

theorem Ensures.imp {a : Action σ α} {post' : α → Exchange σ → Prop}
    (ha : Ensures inv allowed a post) (h : ∀ v y, post v y → post' v y) :
    Ensures inv allowed a post' := by
  intro x hx
  obtain ⟨hkept, ⟨v, hresult, hv⟩ | hfailed⟩ := ha x hx
  · exact ⟨hkept, .inl ⟨v, hresult, h v _ hv⟩⟩
  · exact ⟨hkept, .inr hfailed⟩

/-- A request that has not begun is an error; one that has begun has a context. -/
theorem ensures_getContext {r : Request}
    (h : r.context = none → allowed noContext) :
    Ensures inv allowed (r.getContext : Action σ Context) fun _ _ => True := by
  rw [Request.getContext]
  cases hcontext : r.context with
  | none => exact ensures_fail (h hcontext)
  | some c => exact ensures_pure fun _ => trivial

end Blocks

/-! ### Answers and their status -/

/-- An answer is made from a value and a status, and the status is recorded. -/
def Responded (a : Response) (x : Exchange σ) : Prop :=
  ∃ data status, answer data status = .ok a ∧ x.status = some status

/-- An answer has the status that it is made with. -/
theorem status_of_answer {data : Option Json} {status : Status} {a : Response}
    (h : answer data status = .ok a) : a.status = status := by
  unfold answer at h
  split at h
  · cases h
    rfl
  · split at h <;> cases h
    rfl

/-- The status that is recorded is that of the answer. -/
theorem Responded.status_eq {a : Response} {x : Exchange σ} (h : Responded a x) :
    x.status = some a.status := by
  obtain ⟨data, status, hanswer, hstatus⟩ := h
  rw [hstatus, status_of_answer hanswer]

/-- A value in JSON is answered with the status that it was to have. -/
theorem ensures_respond (h : Enduring kind inv) (v : Json) (status : Status) :
    Ensures inv allowed (respond (some v) status) fun a x => Responded a x ∧ a.status = status := by
  intro x hx
  simp only [respond, exec_bind, exec_recordStatus]
  have hanswered : ∃ a, answer (some v) status = .ok a := by
    unfold answer
    split <;> exact ⟨_, rfl⟩
  obtain ⟨a, hanswer⟩ := hanswered
  rw [hanswer]
  exact ⟨h.recording status hx,
    .inl ⟨a, rfl, ⟨some v, status, hanswer, rfl⟩, status_of_answer hanswer⟩⟩

/-! ### Layers of routes -/

section Layers

variable {next : Handler σ} {r : Request} {post : Response → Exchange σ → Prop}

/-- The messages of what the layers inside the logger log on their own: those of a route, and the
layer that answers errors. -/
def passing : List String := ["token rejected", "validated token", "request failed"]

/-- Authentication logs what it makes of a token, and leaves the rest to what it wraps. It refuses a
token with the status 401 alone. -/
theorem ensures_authenticate (h : Enduring kind inv) (hkind : ∀ e, e.message ∈ passing → kind e)
    (hallowed : ∀ e : Auth.Error, e.status = .unauthorized → allowed (.ofAuth e)) (engine : Auth.Engine) (keys : σ → Auth.KeyStore)
    (hnext : ∀ claims, Ensures inv allowed (next { r with claims := some claims }) post) :
    Ensures inv allowed (authenticate engine keys next r) post := by
  rw [authenticate]
  cases htoken : Auth.bearerToken r.incoming.headers with
  | error e => exact ensures_fail (hallowed e (Auth.status_of_bearerToken htoken))
  | ok token =>
    apply ensures_get.bind
    intro x _ _
    cases haccept : engine.accept (keys x.world) x.clock token with
    | error e =>
      have hrejected : "token rejected" ∈ passing := by decide
      have hrefused := hallowed e (Auth.Engine.status_of_accept haccept)
      exact (ensures_log h (hkind _ hrejected)).bind fun _ _ _ => ensures_fail hrefused
    | ok accepted =>
      have hvalidated : "validated token" ∈ passing := by decide
      exact (ensures_log h (hkind _ hvalidated)).bind fun _ _ _ => hnext accepted.2

/-- The check of a role leaves the rest to what it wraps, once it is known who sends the request. -/
theorem ensures_authorize (role : String)
    (hunknown : r.claims = none → allowed
      (.internal "claims missing from context: authorize used without authenticate" []))
    (hforbidden : ∀ f, allowed (.ofForbidden f)) (hnext : Ensures inv allowed (next r) post) :
    Ensures inv allowed (authorize role next r) post := by
  rw [authorize]
  cases hclaims : r.claims with
  | none => exact ensures_fail (hunknown hclaims)
  | some claims =>
    dsimp only
    cases Auth.ensureRole claims role with
    | error f => exact ensures_fail (hforbidden f)
    | ok _ => exact hnext

end Layers

end AccountService.Pipeline
