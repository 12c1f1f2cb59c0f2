import AccountService.Proofs.Pipeline.Ensures
import AccountService.Proofs.Service.Handlers
import AccountService.Proofs.Service.Routes

/-!
# How the handlers conduct themselves

Whatever a request says, a handler of the service keeps every condition on the state that bears
events, a status and another world. It comes to an answer that is a success and whose status is
recorded, or to an error. Such an error finds fault with the request, unless it is one that the
store reports, or the handler cannot read what it takes from the path.

## Main definitions

* `Api.Succeeds` — an answer that is a success
* `Api.Obliges` — the answer of a handler, with the state
* `Api.Reports`, `Api.Allows` — what the store may report, and what handlers may therefore end in

## Main statements

* `Api.ensures_test`, `Api.ensures_create`, `Api.ensures_queryById`, `Api.ensures_queryByEmail`,
  `Api.ensures_token` — the handlers one by one
* `Api.ensures_inner` — the endpoints, each a handler inside the layers of its route
-/

namespace AccountService.Api

open Http Pipeline

variable {σ τ α : Type}

/-- An answer that is a success. -/
def Succeeds (a : Response) : Prop := a.status.code < 400

/-- An answer is a success, and made from a value and a status that is recorded. -/
def Obliges (a : Response) (x : Exchange τ) : Prop := Responded a x ∧ Succeeds a

/-- What a store may report in place of a result. -/
inductive Reports (b : Accounts.Backend σ) : Accounts.Error → Prop where
  | create {n : Accounts.NewUser} {accounts : σ} {entropy : Entropy} {e : Accounts.Error} :
    (b.create n accounts entropy).1 = .error e → Reports b e
  | byId {accounts : σ} {id : String} {e : Accounts.Error} :
    b.byId accounts id = .error e → Reports b e
  | byEmail {accounts : σ} {email : String} {e : Accounts.Error} :
    b.byEmail accounts email = .error e → Reports b e
  | authenticate {accounts : σ} {email password : String} {e : Accounts.Error} :
    b.authenticate accounts email password = .error e → Reports b e

/-- Handlers may find fault with the request, and they may pass on what the store reports. -/
structure Allows (s : Settings σ) (allowed : Error → Prop) : Prop where
  reproach : ∀ e : Error, e.Reproaches → allowed e
  report : ∀ e, Reports s.backend e → allowed e.toPipeline

section Parts

variable {inv : Exchange τ → Prop} {allowed : Error → Prop}

theorem ensures_orFail {result : Except Accounts.Error α}
    (hreport : ∀ e, result = .error e → allowed e.toPipeline) :
    Ensures inv allowed (orFail result : Action τ α) fun _ _ => True := by
  cases result with
  | ok a => exact ensures_pure fun _ => trivial
  | error e => exact ensures_fail (hreport e rfl)

theorem ensures_newUser (hreproach : ∀ e : Error, e.Reproaches → allowed e) (r : Request) :
    Ensures inv allowed (newUser r : Action τ Accounts.NewUser) fun _ _ => True := by
  have hbad (message : String) : allowed (.request (.badRequest message)) :=
    hreproach _ ⟨_, rfl, of_decide_eq_true rfl, of_decide_eq_true rfl⟩
  rw [newUser]
  split
  · exact ensures_fail (hbad _)
  · split
    · exact ensures_pure fun _ => trivial
    · exact ensures_fail (hbad _)

/-- A parameter that cannot be read is an error of the service, whatever is wrong with it. -/
theorem ensures_param {r : Request} {name : String}
    (hparam : (∀ value, ¬ Reads r name value) → ∀ message, allowed (.internal message [])) :
    Ensures inv allowed (param r name : Action τ String) fun _ _ => True := by
  by_cases hreads : ∃ value, Reads r name value
  · obtain ⟨value, hvalue⟩ := hreads
    intro x hx
    rw [exec_param hvalue]
    exact ⟨hx, .inl ⟨value, rfl, trivial⟩⟩
  · have hinternal := hparam (not_exists.1 hreads)
    rw [param]
    split
    · exact ensures_fail (hinternal _)
    · exact ensures_fail (hinternal _)
    · split
      · exact ensures_pure fun _ => trivial
      · exact ensures_fail (hinternal _)

theorem ensures_show {kind : Log.Event → Prop} (h : Enduring kind inv) (v : Json) {status : Status}
    (hcode : status.code < 400) : Ensures inv allowed (respond (some v) status) Obliges := by
  apply (ensures_respond h v status).imp
  rintro a x ⟨hresponded, rfl⟩
  exact ⟨hresponded, hcode⟩

end Parts

section Handlers

variable {inv : Exchange (World σ) → Prop} {allowed : Error → Prop} {kind : Log.Event → Prop}
  (h : Enduring kind inv) {r : Request}
  (hcontext : r.context = none → allowed noContext)

include h hcontext

theorem ensures_test : Ensures inv allowed (Api.test r) Obliges :=
  (ensures_getContext hcontext).bind fun _ _ _ => ensures_show h _ (by decide)

variable {s : Settings σ} (hallows : Allows s allowed)

include hallows

/-- Whatever the store makes of a submission. -/
theorem ensures_create (hkind : ∀ e, e.message = "user created" → kind e) :
    Ensures inv allowed (Api.create s r) Obliges := by
  apply (ensures_getContext hcontext).bind
  intro context _ _
  apply (ensures_newUser hallows.reproach r).bind
  intro n _ _
  apply ensures_get.bind
  intro x _ hx
  rcases hcreate : s.backend.create n x.world.accounts x.entropy with ⟨result, accounts, entropy⟩
  -- What is written back is what was read but for the world and the source.
  apply (ensures_set (h.writing { x.world with accounts := accounts } entropy hx)).bind
  intro _ _ _
  have hreport (e : Accounts.Error) (he : result = .error e) : allowed e.toPipeline :=
    hallows.report e (.create ((congrArg Prod.fst hcreate).trans he))
  apply (ensures_orFail hreport).bind
  intro user _ _
  exact (ensures_log h (hkind _ rfl)).bind fun _ _ _ => ensures_show h _ (by decide)

theorem ensures_queryById
    (hparam : (∀ value, ¬ Reads r "id" value) → ∀ message, allowed (.internal message [])) :
    Ensures inv allowed (queryById s r) Obliges := by
  have hforbidden : allowed adminRequired := hallows.reproach _ (Error.reproaches_ofForbidden _)
  apply (ensures_getContext hcontext).bind
  intro _ _ _
  apply (ensures_param hparam).bind
  intro id _ _
  cases r.claims with
  | none => exact ensures_fail hforbidden
  | some claims =>
    dsimp only
    split
    · apply ensures_get.bind
      intro x _ _
      apply (ensures_orFail fun e he => hallows.report e (.byId he)).bind
      exact fun _ _ _ => ensures_show h _ (by decide)
    · exact ensures_fail hforbidden

theorem ensures_queryByEmail
    (hparam : (∀ value, ¬ Reads r "email" value) → ∀ message, allowed (.internal message [])) :
    Ensures inv allowed (queryByEmail s r) Obliges := by
  apply (ensures_getContext hcontext).bind
  intro _ _ _
  apply (ensures_param hparam).bind
  intro email _ _
  apply ensures_get.bind
  intro x _ _
  apply (ensures_orFail fun e he => hallows.report e (.byEmail he)).bind
  exact fun _ _ _ => ensures_show h _ (by decide)

/-- Whatever the credentials, the clock and the keys are. -/
theorem ensures_token (hkind : ∀ e, e.message = "issuing token" → kind e) :
    Ensures inv allowed (Api.token s r) Obliges := by
  have hrefused {e : Auth.Error} (he : e.status = .unauthorized) : allowed (.ofAuth e) :=
    hallows.reproach _ (Error.reproaches_ofAuth he)
  apply (ensures_getContext hcontext).bind
  intro context _ _
  cases hcredentials : Auth.basicCredentials r.incoming.headers with
  | error e => exact ensures_fail (hrefused (Auth.status_of_basicCredentials hcredentials))
  | ok credentials =>
    apply ensures_get.bind
    intro x _ hx
    apply (ensures_orFail fun e he => hallows.report e (.authenticate he)).bind
    intro user _ _
    cases hissue : Auth.Claims.issue x.clock user.id.text s.issuer [user.role] s.tokenTtl with
    | error e => exact ensures_fail (hrefused (Auth.Claims.status_of_issue hissue))
    | ok claims =>
      rcases x.entropy.take s.engine.scheme.digest.size with ⟨salt, entropy⟩
      apply (ensures_set (h.writing x.world entropy hx)).bind
      intro _ _ _
      cases hgenerate : s.engine.generate x.world.keys salt claims with
      | error e =>
        exact (ensures_log h (hkind _ rfl)).bind fun _ _ _ =>
          ensures_fail (hrefused (Auth.Engine.status_of_generate hgenerate))
      | ok token => exact ensures_show h _ (by decide)

end Handlers

/-! ### Endpoints -/

/-- An endpoint, with the layers of its route, on a request that has begun. It may also end in an
error of the service where a parameter of its pattern cannot be read. -/
theorem ensures_inner {inv : Exchange (World σ) → Prop} {allowed : Error → Prop} {s : Settings σ}
    (h : Enduring (fun _ => True) inv) (hallows : Allows s allowed) {r : Request} {c : Context}
    (hcontext : r.context = some c) (p : Endpoint)
    (hparam : ∀ name ∈ p.pattern.names, (∀ value, ¬ Reads r name value) →
      ∀ message, allowed (.internal message [])) :
    Ensures inv allowed (p.inner s r) Obliges := by
  have hbegun (hnone : r.context = none) : allowed noContext := by
    rw [hcontext] at hnone
    cases hnone
  have hauthenticate {next : Handler (World σ)}
      (hnext : ∀ claims, Ensures inv allowed (next { r with claims := some claims }) Obliges) :
      Ensures inv allowed (authenticate s.engine World.keys next r) Obliges :=
    ensures_authenticate h (fun _ _ => trivial)
      (fun _ he => hallows.reproach _ (Error.reproaches_ofAuth he)) s.engine _ hnext
  have hadmin {next : Handler (World σ)}
      (hnext : ∀ claims, Ensures inv allowed (next { r with claims := some claims }) Obliges) :
      Ensures inv allowed (authenticate s.engine World.keys (authorize Auth.admin next) r)
        Obliges := by
    apply hauthenticate
    intro claims
    exact ensures_authorize Auth.admin (fun hnone => by cases hnone)
      (fun f => hallows.reproach _ (Error.reproaches_ofForbidden f)) (hnext claims)
  cases p with
  | test => exact ensures_test h hbegun
  | token => exact ensures_token h hbegun hallows fun _ _ => trivial
  | testauth => exact hadmin fun _ => ensures_test h hbegun
  | create => exact hadmin fun _ => ensures_create h hbegun hallows fun _ _ => trivial
  | byId =>
    have hid := hparam "id" (List.mem_singleton_self _)
    exact hauthenticate fun claims =>
      ensures_queryById (r := { r with claims := some claims }) h hbegun hallows hid
  | byEmail =>
    have hemail := hparam "email" (List.mem_singleton_self _)
    exact hadmin fun claims =>
      ensures_queryByEmail (r := { r with claims := some claims }) h hbegun hallows hemail

end AccountService.Api
