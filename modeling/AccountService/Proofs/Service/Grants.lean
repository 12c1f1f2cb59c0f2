import AccountService.Proofs.Pipeline.Authentication
import AccountService.Proofs.Service.Serving

/-!
# What a request is granted and refused

A request for a resource either is declined, with the world as it was, or is granted what the
resource grants. What is granted tells who must have sent the request.

## Main definitions

* `Api.Resource.Guarded`, `Api.Resource.Entitles` — the resources that want a token, and whose
* `Api.Resource.Readable` — the resources whose identifier can be read
* `Api.Granted` — what a request for a resource is granted

## Main statements

* `Api.outcome_cases` — a request is declined or granted what its resource grants
* `Api.granted_of_success` — what is answered as a success was granted
* `Api.outcome_of_presented_eq_error`, `Api.outcome_of_not_entitles` — who is refused
-/

namespace AccountService.Api

open Http Pipeline

/-! ### Resources -/

namespace Resource

/-- The resources that want a token. -/
def Guarded : Resource → Prop
  | test => False
  | token => False
  | _ => True

/-- The claims that a guarded resource is open to: those of an administrator, and for an account
also those of its owner. -/
def Entitles (c : Auth.Claims) : Resource → Prop
  | user id => c.hasRole Auth.admin = true ∨ decodeValue id = some c.subject
  | _ => c.hasRole Auth.admin = true

/-- Whether the identifier that a resource may have is a text. -/
def Readable : Resource → Prop
  | user id => (decodeValue id).isSome = true
  | _ => True

instance (res : Resource) : Decidable res.Readable :=
  match res with
  | user id => inferInstanceAs (Decidable ((decodeValue id).isSome = true))
  | test | testauth | token | users | email _ => inferInstanceAs (Decidable True)

theorem readable_iff {res : Resource} :
    res.Readable ↔ ∀ id, res = user id → decodeValue id ≠ none := by
  cases res with
  | user id => simp [Readable, Option.isSome_iff_ne_none]
  | _ => exact iff_of_true trivial fun id h => nomatch h

end Resource

variable {σ : Type}

/-! ### Layers of the routes -/

theorem Declines.of_world_eq {τ α : Type} {x y : Exchange τ}
    {outcome : Except Failure α × Exchange τ} (h : Declines y outcome)
    (hworld : y.world = x.world) : Declines x outcome :=
  ⟨h.1.trans hworld, h.2⟩

theorem Shows.of_world_eq {τ : Type} {v : Json} {x y : Exchange τ}
    {outcome : Except Failure Response × Exchange τ} (h : Shows v y outcome)
    (hworld : y.world = x.world) : Shows v x outcome :=
  ⟨h.1.trans hworld, h.2⟩

section Layers

variable (engine : Auth.Engine) (next : Handler (World σ)) (r : Request) (x : Exchange (World σ))

/-- Behind authentication a request is declined or goes on with the claims that it bears. -/
theorem exec_authenticate_cases :
    Declines x (exec (authenticate engine World.keys next r) x) ∨
      ∃ c y, Auth.Bears engine x.world.keys x.clock r.incoming.headers c ∧ y.world = x.world ∧
        exec (authenticate engine World.keys next r) x =
          exec (next { r with claims := some c }) y := by
  by_cases h : ∃ c, Auth.Bears engine x.world.keys x.clock r.incoming.headers c
  · obtain ⟨c, hbears⟩ := h
    obtain ⟨event, hnext⟩ := exec_authenticate_of_bears engine World.keys next r x hbears
    exact .inr ⟨c, x.logging event, hbears, rfl, hnext⟩
  · obtain ⟨q, y, hfail, hstatus, hworld⟩ :=
      exec_authenticate_of_not_bears engine World.keys next r x (not_exists.1 h)
    rw [hfail]
    refine .inl ⟨hworld, _, rfl, ?_⟩
    simp only [statusOf, hstatus]
    decide

/-- A request that bears a token of an administrator passes the check of the role. -/
theorem exec_admin_of_hasRole {c : Auth.Claims}
    (hbears : Auth.Bears engine x.world.keys x.clock r.incoming.headers c)
    (hrole : c.hasRole Auth.admin = true) :
    ∃ event, exec (authenticate engine World.keys (authorize Auth.admin next) r) x =
      exec (next { r with claims := some c }) (x.logging event) := by
  obtain ⟨event, hnext⟩ :=
    exec_authenticate_of_bears engine World.keys (authorize Auth.admin next) r x hbears
  exact ⟨event, hnext.trans (exec_authorize_of_hasRole next (x.logging event) rfl hrole)⟩

/-- Behind the check of the role a request is declined or goes on with the claims of an
administrator. -/
theorem exec_admin_cases :
    Declines x (exec (authenticate engine World.keys (authorize Auth.admin next) r) x) ∨
      ∃ c y, Auth.Bears engine x.world.keys x.clock r.incoming.headers c ∧
        c.hasRole Auth.admin = true ∧ y.world = x.world ∧
        exec (authenticate engine World.keys (authorize Auth.admin next) r) x =
          exec (next { r with claims := some c }) y := by
  obtain hdeclines | ⟨c, y, hbears, hworld, hnext⟩ :=
    exec_authenticate_cases engine (authorize Auth.admin next) r x
  · exact .inl hdeclines
  · rw [hnext]
    cases hrole : c.hasRole Auth.admin with
    | false =>
      rw [exec_authorize_of_not_hasRole next y rfl hrole]
      exact .inl ⟨hworld, _, rfl, by decide⟩
    | true =>
      rw [exec_authorize_of_hasRole next y rfl hrole]
      exact .inr ⟨c, y, hbears, hrole, hworld, rfl⟩

variable {next r} in
/-- What is shown behind the check of the role is shown to an administrator. -/
theorem exec_admin_shows
    (hnext : ∀ c y, Declines y (exec (next { r with claims := some c }) y) ∨
      ∃ v, Shows v y (exec (next { r with claims := some c }) y)) :
    Declines x (exec (authenticate engine World.keys (authorize Auth.admin next) r) x) ∨
      ∃ c v, Auth.Bears engine x.world.keys x.clock r.incoming.headers c ∧
        c.hasRole Auth.admin = true ∧
        Shows v x (exec (authenticate engine World.keys (authorize Auth.admin next) r) x) := by
  obtain hdeclines | ⟨c, y, hbears, hrole, hworld, hinner⟩ := exec_admin_cases engine next r x
  · exact .inl hdeclines
  · rw [hinner]
    obtain hdeclines | ⟨v, hshows⟩ := hnext c y
    · exact .inl (hdeclines.of_world_eq hworld)
    · exact .inr ⟨c, v, hbears, hrole, hshows.of_world_eq hworld⟩

end Layers

/-! ### What is granted -/

variable (s : Settings σ) (site : Site (World σ)) (clock now : Instant) (r : Incoming)
  (res : Resource)

/-- What is granted to a request that finds a state, by what it asks for. -/
def Granted (s : Settings Accounts.Store) (r : Incoming) (x : Exchange (World Accounts.Store))
    (outcome : Except Failure Response × Exchange (World Accounts.Store)) : Resource → Prop
  | .test => ∃ v, Shows v x outcome
  | .token => ∃ v, Shows v x outcome
  | .users => ∃ c account, Auth.Bears s.engine x.world.keys x.clock r.headers c ∧
      c.hasRole Auth.admin = true ∧ outcome.1 = .ok (shown account.user.json .created) ∧
      outcome.2.world = { x.world with accounts := x.world.accounts.insert account }
  | .user id => ∃ c text user, Auth.Bears s.engine x.world.keys x.clock r.headers c ∧
      decodeValue id = some text ∧ Auth.isSelfOrRole c text Auth.admin = true ∧
      s.backend.byId x.world.accounts text = .ok user ∧ Shows user.json x outcome
  | _ => ∃ c v, Auth.Bears s.engine x.world.keys x.clock r.headers c ∧
      c.hasRole Auth.admin = true ∧ Shows v x outcome

/-- A request is declined or granted what its resource grants. -/
theorem outcome_cases {scheme : Accounts.PasswordScheme} {s : Settings Accounts.Store}
    (hbackend : s.backend = .memory scheme) (site : Site (World Accounts.Store)) :
    Declines (opening site clock now r res) (outcome s site clock now r res) ∨
      Granted s r (opening site clock now r res) (outcome s site clock now r res) res := by
  have hcontext := context_arriving site clock now r res
  cases res with
  | test => exact .inr ⟨_, exec_test hcontext _⟩
  | token =>
    obtain hdeclines | ⟨-, -, -, token, -, -, -, -, hshows⟩ :=
      exec_token hcontext s (opening site clock now r .token)
    · exact .inl hdeclines
    · exact .inr ⟨_, hshows⟩
  | testauth =>
    apply exec_admin_shows
    intro c y
    exact .inr ⟨_, exec_test hcontext y⟩
  | email address =>
    apply exec_admin_shows
    intro c y
    obtain hdeclines | ⟨user, hshows⟩ := exec_queryByEmail
      (r := { arriving site clock now r (.email address) with claims := some c }) hcontext s y
    · exact .inl hdeclines
    · exact .inr ⟨user.json, hshows⟩
  | users =>
    -- The role has been checked when the handler is reached, and the world is still the same.
    obtain hdeclines | ⟨c, y, hbears, hrole, hworld, hnext⟩ := exec_admin_cases s.engine
      (Api.create s) (arriving site clock now r .users) (opening site clock now r .users)
    · exact .inl hdeclines
    · have hcreate := exec_create (r := { arriving site clock now r .users with claims := some c })
        hcontext hbackend y
      rw [← hnext] at hcreate
      obtain hdeclines | ⟨account, hshown, hcreated⟩ := hcreate
      · exact .inl (hdeclines.of_world_eq hworld)
      · exact .inr ⟨c, account, hbears, hrole, hshown, hworld ▸ hcreated⟩
  | user id =>
    -- The role is not checked by a layer here, but by the handler, together with the owner.
    obtain hdeclines | ⟨c, y, hbears, hworld, hnext⟩ := exec_authenticate_cases s.engine
      (queryById s) (arriving site clock now r (.user id)) (opening site clock now r (.user id))
    · exact .inl hdeclines
    · have hquery := exec_queryById
        (r := { arriving site clock now r (.user id) with claims := some c }) hcontext s y rfl
      rw [← hnext] at hquery
      obtain hdeclines | ⟨text, user, hreads, hself, huser, hshows⟩ := hquery
      · exact .inl (hdeclines.of_world_eq hworld)
      · have hdecode := (reads_iff_of_params rfl).1 hreads
        exact .inr ⟨c, text, user, hbears, hdecode, hself, hworld ▸ huser,
          hshows.of_world_eq hworld⟩

/-! ### What is refused -/

section Refusals

variable {site clock r res} {c : Auth.Claims}

theorem exists_inner_eq_authenticate (hguarded : res.Guarded) :
    ∃ next, res.endpoint.inner s = authenticate s.engine World.keys next := by
  cases res with
  | test => exact absurd hguarded id
  | token => exact absurd hguarded id
  | _ => exact ⟨_, rfl⟩

/-- A guarded resource tells whoever presents no claims why it refuses, and the world stays as it
was. -/
theorem outcome_of_presented_eq_error (hguarded : res.Guarded) {err : Auth.Error}
    (h : Auth.presented s.engine site.world.keys clock r.headers = .error err) :
    ∃ y, outcome s site clock now r res = (.error (.error (.ofAuth err)), y) ∧
      y.world = site.world := by
  obtain ⟨next, hinner⟩ := exists_inner_eq_authenticate s hguarded
  rw [outcome, hinner]
  exact exec_authenticate_of_error s.engine World.keys next (arriving site clock now r res)
    (opening site clock now r res) h

/-- A route for administrators refuses everybody else. -/
theorem exec_admin_of_not_hasRole {next : Handler (World σ)} {r : Request} {x : Exchange (World σ)}
    (hbears : Auth.Bears s.engine x.world.keys x.clock r.incoming.headers c)
    (hrole : c.hasRole Auth.admin = false) :
    ∃ y, exec (authenticate s.engine World.keys (authorize Auth.admin next) r) x =
        (.error (.error adminRequired), y) ∧ y.world = x.world := by
  obtain ⟨event, hnext⟩ := exec_authenticate_of_bears s.engine World.keys
    (authorize Auth.admin next) r x hbears
  exact ⟨x.logging event,
    hnext.trans (exec_authorize_of_not_hasRole next (x.logging event) rfl hrole), rfl⟩

/-- An account is shown neither to strangers nor under an identifier that is no text. -/
theorem exec_queryById_of_not_entitles {q : Request} {x : Exchange (World σ)} {context : Context}
    {id : List Char} (hcontext : q.context = some context) (hclaims : q.claims = some c)
    (hparams : q.params = readParams [("id", id)]) (hnot : ¬ (Resource.user id).Entitles c) :
    exec (queryById s q) x = (.error (.error
      (if (Resource.user id).Readable then adminRequired else unreadableParam)), x) := by
  cases hid : decodeValue id with
  | none =>
    have hunreadable : q.params = .unreadable :=
      hparams.trans (readParams_of_decodeValue_eq_none hid)
    have hnot : ¬ (Resource.user id).Readable := by simp [Resource.Readable, hid]
    rw [if_neg hnot]
    exact exec_queryById_of_unreadable hcontext s x hunreadable
  | some text =>
    -- Neither the role nor the subject helps, and the handler says so before it asks the store.
    have hread : q.params = .read [("id", text)] := by rw [hparams]; simp [readParams, hid]
    have hreadable : (Resource.user id).Readable := by simp [Resource.Readable, hid]
    have hrole : c.hasRole Auth.admin = false :=
      Bool.eq_false_of_not_eq_true fun h => hnot (.inl h)
    have hother : c.subject ≠ text := fun h => hnot (.inr (h ▸ hid))
    have hself : Auth.isSelfOrRole c text Auth.admin = false := by
      simp [Auth.isSelfOrRole, Auth.authorized, hrole, hother]
    rw [if_pos hreadable]
    exact exec_queryById_of_not_self hcontext s x hclaims ⟨_, "id", hread, rfl⟩ hself

/-- A guarded resource refuses whoever bears a token that does not entitle to it, and the world
stays as it was. -/
theorem outcome_of_not_entitles (hguarded : res.Guarded)
    (hbears : Auth.Bears s.engine site.world.keys clock r.headers c) (hnot : ¬ res.Entitles c) :
    ∃ y, outcome s site clock now r res =
        (.error (.error (if res.Readable then adminRequired else unreadableParam)), y) ∧
      y.world = site.world := by
  cases res with
  | test => exact absurd hguarded id
  | token => exact absurd hguarded id
  | testauth => exact exec_admin_of_not_hasRole s hbears (Bool.eq_false_of_not_eq_true hnot)
  | users => exact exec_admin_of_not_hasRole s hbears (Bool.eq_false_of_not_eq_true hnot)
  | email address => exact exec_admin_of_not_hasRole s hbears (Bool.eq_false_of_not_eq_true hnot)
  | user id =>
    obtain ⟨event, hnext⟩ := exec_authenticate_of_bears s.engine World.keys (queryById s)
      (arriving site clock now r (.user id)) (opening site clock now r (.user id)) hbears
    have hrefused := exec_queryById_of_not_entitles s
      (q := { arriving site clock now r (.user id) with claims := some c })
      (x := (opening site clock now r (.user id)).logging event)
      (context_arriving site clock now r (.user id)) rfl rfl hnot
    exact ⟨_, hnext.trans hrefused, rfl⟩

end Refusals

/-! ### What is answered -/

/-- What is declined is not answered as a success. -/
theorem Declines.code_answerOf {x : Exchange σ} {outcome : Except Failure Response × Exchange σ}
    (h : Declines x outcome) : 400 ≤ (answerOf outcome.1).status.code := by
  obtain ⟨_, e, herror, hcode⟩ := h
  rw [herror]
  cases e with
  | request q => exact hcode
  | _ => exact of_decide_eq_true rfl

/-- Whatever is granted is shown, but for the creation of an account. -/
theorem Granted.shows {s : Settings Accounts.Store} {r : Incoming} {res : Resource}
    {x : Exchange (World Accounts.Store)}
    {outcome : Except Failure Response × Exchange (World Accounts.Store)}
    (h : Granted s r x outcome res) (hres : res ≠ .users) : ∃ v, Shows v x outcome := by
  cases res with
  | users => exact absurd rfl hres
  | test => exact h
  | token => exact h
  | testauth =>
    obtain ⟨_, v, _, _, hshows⟩ := h
    exact ⟨v, hshows⟩
  | user id =>
    obtain ⟨_, _, user, _, _, _, _, hshows⟩ := h
    exact ⟨user.json, hshows⟩
  | email address =>
    obtain ⟨_, v, _, _, hshows⟩ := h
    exact ⟨v, hshows⟩

/-- A request that is answered as a success was granted what its resource grants. -/
theorem granted_of_success {scheme : Accounts.PasswordScheme} {s : Settings Accounts.Store}
    (hbackend : s.backend = .memory scheme) {site : Site (World Accounts.Store)} {clock : Instant}
    {r : Incoming} {a : Response}
    (hresult : (site.run clock ((application s).serve r)).1 = .ok a) (hcode : a.status.code < 400) :
    ∃ res now, res.Proper ∧ r.path.toList = res.path ∧ res.Answers r.method ∧
      Granted s r (opening site clock now r res) (outcome s site clock now r res) res ∧
      a = (answerOf (outcome s site clock now r res).1).sentFor r.method := by
  obtain ⟨res, now, hproper, hpath, hanswers, _, hsent, _⟩ | ⟨hfailure, _⟩ :=
    run_cases s site clock r
  -- What is declined or not served has a code from 400 up.
  · obtain rfl := Except.ok.inj (hresult.symm.trans hsent)
    obtain hdeclines | hgranted := outcome_cases clock now r res hbackend site
    · rw [status_sentFor] at hcode
      exact absurd hdeclines.code_answerOf (not_le.2 hcode)
    · exact ⟨res, now, hproper, hpath, hanswers, hgranted, rfl⟩
  · exact absurd (hfailure a hresult) (not_le.2 hcode)

end AccountService.Api
