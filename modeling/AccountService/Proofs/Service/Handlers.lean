import AccountService.Proofs.Accounts.Store
import AccountService.Proofs.Pipeline.Harmless
import AccountService.Service.Api

/-!
# What the handlers come to

A handler either declines a request with an error or shows a value. None but the one that
creates accounts changes the world, and that one does so only if it shows the account.

## Main definitions

* `Api.shown` — the answer that carries a value
* `Api.Declines`, `Api.Shows` — the ways in which a handler leaves the world as it is

## Main statements

* `Api.exec_test`, `Api.exec_token`, `Api.exec_create`, `Api.exec_queryById`,
  `Api.exec_queryByEmail` — the handlers one by one
* `Api.exec_queryById_of_self`, `Api.exec_queryById_of_not_self` — who sees an account, and who does
  not
-/

namespace AccountService.Api

open Http Pipeline

variable {σ τ α : Type}

/-! ### Answers -/

/-- The answer that carries a value. -/
def shown (v : Json) (status : Status) : Response :=
  ⟨status, [("content-type", "application/json")], v.render⟩

theorem exec_respond {status : Status} (h : status ≠ .noContent) (v : Json) (x : Exchange τ) :
    exec (respond (some v) status) x = (.ok (shown v status), x.recording status) := by
  simp only [respond, answer, if_neg h, exec_bind, exec_recordStatus]
  rfl

/-- An outcome is an error that is not answered as a success, and the world is as it was. -/
def Declines (x : Exchange τ) (outcome : Except Failure α × Exchange τ) : Prop :=
  outcome.2.world = x.world ∧
    ∃ e, outcome.1 = .error (.error e) ∧ 400 ≤ (statusOf e).code

/-- An outcome is a value that is shown, and the world is as it was. -/
def Shows (v : Json) (x : Exchange τ) (outcome : Except Failure Response × Exchange τ) : Prop :=
  outcome.2.world = x.world ∧ outcome.1 = .ok (shown v .ok)

theorem mild_toPipeline (e : Accounts.Error) : e.toPipeline.Mild := by
  cases e <;> exact ⟨rfl, of_decide_eq_true rfl⟩

/-- Whatever keeps an account from being created or shown is the caller's fault, but for a password
that cannot be hashed. -/
theorem reproaches_toPipeline {e : Accounts.Error} (h : ∀ detail, e ≠ .hash detail) :
    e.toPipeline.Reproaches := by
  cases e with
  | hash detail => exact absurd rfl (h detail)
  | _ => exact ⟨_, rfl, of_decide_eq_true rfl, of_decide_eq_true rfl⟩

theorem shows_respond (v : Json) {x y : Exchange τ} (h : y.world = x.world) :
    Shows v x (exec (respond (some v) .ok) y) := by
  rw [exec_respond (by decide)]
  exact ⟨h, rfl⟩

theorem declines_fail {e : Error} {x y : Exchange τ} (h : y.world = x.world)
    (hcode : 400 ≤ (statusOf e).code) : Declines x (exec (fail e : Action τ α) y) :=
  ⟨h, e, rfl, hcode⟩

/-! ### Reading requests -/

theorem exec_orFail (result : Except Accounts.Error α) (x : Exchange τ) :
    exec (orFail result) x =
      match result with
      | .ok a => (.ok a, x)
      | .error e => (.error (.error e.toPipeline), x) := by
  cases result <;> rfl

/-- A submission that cannot be read is the caller's fault. -/
theorem exec_newUser (r : Request) (x : Exchange τ) :
    (∃ n, Accounts.NewUser.ofBody? r.incoming.body = some n ∧
        exec (newUser r) x = (.ok n, x)) ∨
      ∃ q, exec (newUser r) x = (.error (.error (.request q)), x) ∧ q.status = .badRequest := by
  rw [newUser]
  split
  · exact .inr ⟨_, rfl, rfl⟩
  · split
    · next n hn => exact .inl ⟨n, hn, rfl⟩
    · exact .inr ⟨_, rfl, rfl⟩

/-- A request has a value for a parameter of its route. -/
def Reads (r : Request) (name value : String) : Prop :=
  ∃ params key, r.params = .read params ∧ params.find? (·.1 == name) = some (key, value)

theorem exec_param {r : Request} {name value : String} (h : Reads r name value) (x : Exchange τ) :
    exec (param r name) x = (.ok value, x) := by
  obtain ⟨params, key, hparams, hvalue⟩ := h
  simp only [param, hparams, hvalue]
  rfl

/-- The error of a path whose parameters are no texts. -/
def unreadableParam : Pipeline.Error :=
  .internal "reading path parameters: a parameter is not UTF-8" []

theorem exec_param_of_unreadable {r : Request} (h : r.params = .unreadable) (name : String)
    (x : Exchange τ) : exec (param r name) x = (.error (.error unreadableParam), x) := by
  simp only [param, h, exec_fail, unreadableParam]

/-- A parameter that cannot be read is an error inside the service. -/
theorem exec_param_of_not_reads {r : Request} {name : String} (h : ∀ value, ¬ Reads r name value)
    (x : Exchange τ) :
    ∃ e, exec (param r name) x = (.error (.error e), x) ∧ statusOf e = .internalError := by
  rw [param]
  split
  · exact ⟨_, rfl, rfl⟩
  · exact ⟨_, rfl, rfl⟩
  · next params hparams =>
    split
    · next key value hvalue => exact absurd ⟨params, key, hparams, hvalue⟩ (h value)
    · exact ⟨_, rfl, rfl⟩

/-! ### Handlers -/

variable {r : Request} {c : Context} (hcontext : r.context = some c)

include hcontext

theorem exec_test (x : Exchange τ) :
    Shows (.record [("status", .text "OK")]) x (exec (Api.test r) x) := by
  simp only [Api.test, exec_bind, exec_getContext x hcontext]
  exact shows_respond _ rfl

variable (s : Settings σ) (x : Exchange (World σ))

/-- A token for the claims of whoever has the credentials is handed out, without a change of the
world. -/
theorem exec_token :
    Declines x (exec (Api.token s r) x) ∨
      ∃ credentials user claims token,
        Auth.basicCredentials r.incoming.headers = .ok credentials ∧
        s.backend.authenticate x.world.accounts credentials.1 credentials.2 = .ok user ∧
        Auth.Claims.issue x.clock user.id.text s.issuer [user.role] s.tokenTtl = .ok claims ∧
        s.engine.generate x.world.keys (x.entropy.take s.engine.scheme.digest.size).1 claims =
          .ok token ∧
        Shows (.record [("token", .text token)]) x (exec (Api.token s r) x) := by
  simp only [Api.token, exec_bind, exec_getContext x hcontext]
  -- Credentials, account, claims, signature: each may be refused, and none touches the world.
  cases hcredentials : Auth.basicCredentials r.incoming.headers with
  | error e => exact .inl (declines_fail rfl (Error.mild_ofAuth e).2)
  | ok credentials =>
    obtain ⟨email, password⟩ := credentials
    simp only [exec_bind, exec_get, exec_orFail]
    cases huser : s.backend.authenticate x.world.accounts email password with
    | error e => exact .inl ⟨rfl, _, rfl, (mild_toPipeline e).2⟩
    | ok user =>
      dsimp only
      cases hclaims : Auth.Claims.issue x.clock user.id.text s.issuer [user.role] s.tokenTtl with
      | error e => exact .inl (declines_fail rfl (Error.mild_ofAuth e).2)
      | ok claims =>
        simp only [exec_bind, exec_set]
        cases hsigned : s.engine.generate x.world.keys
            (x.entropy.take s.engine.scheme.digest.size).1 claims with
        | error e =>
          simp only [exec_bind, exec_log]
          exact .inl (declines_fail rfl (Error.mild_ofAuth e).2)
        | ok token =>
          exact .inr ⟨(email, password), user, claims, token, rfl, huser, hclaims, hsigned,
            shows_respond _ rfl⟩

/-- An account is created of the submission in the body and shown, or nothing happens. -/
theorem exec_create_of_body {scheme : Accounts.PasswordScheme} {s : Settings Accounts.Store}
    (hbackend : s.backend = .memory scheme) (x : Exchange (World Accounts.Store)) :
    Declines x (exec (Api.create s r) x) ∨
      ∃ n user accounts entropy, Accounts.NewUser.ofBody? r.incoming.body = some n ∧
        x.world.accounts.create scheme n x.entropy = (.ok user, accounts, entropy) ∧
        (exec (Api.create s r) x).1 = .ok (shown user.json .created) ∧
        (exec (Api.create s r) x).2.world = { x.world with accounts := accounts } := by
  simp only [Api.create, exec_bind, exec_getContext x hcontext]
  obtain ⟨n, hbody, hn⟩ | ⟨q, hq, hstatus⟩ := exec_newUser r x
  · simp only [hn, exec_get, exec_set, exec_orFail, hbackend, Accounts.Backend.memory]
    rcases hcreate : Accounts.Store.create scheme n x.world.accounts x.entropy with
      ⟨result, accounts, entropy⟩
    cases result with
    | error e =>
      -- The randomness is spent all the same, but the store is as it was.
      have hsame := Accounts.Store.store_of_create_eq_error hcreate
      refine .inl ⟨?_, _, rfl, (mild_toPipeline e).2⟩
      simp only [hsame]
    | ok user =>
      have hstatus : Status.created ≠ .noContent := by decide
      simp only [exec_log, exec_respond hstatus]
      exact .inr ⟨n, user, accounts, entropy, hbody, hcreate, rfl, rfl⟩
  · rw [hq]
    refine .inl ⟨rfl, _, rfl, ?_⟩
    simp only [statusOf, hstatus]
    decide

/-- An account is created and shown, or nothing happens. -/
theorem exec_create {scheme : Accounts.PasswordScheme} {s : Settings Accounts.Store}
    (hbackend : s.backend = .memory scheme) (x : Exchange (World Accounts.Store)) :
    Declines x (exec (Api.create s r) x) ∨
      ∃ account, (exec (Api.create s r) x).1 = .ok (shown account.user.json .created) ∧
        (exec (Api.create s r) x).2.world =
          { x.world with accounts := x.world.accounts.insert account } := by
  obtain hdeclines | ⟨n, user, accounts, entropy, _, hcreate, hshown, hworld⟩ :=
    exec_create_of_body hcontext hbackend x
  · exact .inl hdeclines
  · obtain ⟨_, password, _, _, _, rfl, _⟩ := Accounts.Store.create_eq_ok_iff.1 hcreate
    exact .inr ⟨⟨user, password⟩, hshown, hworld⟩

/-- What the store knows of the email in the path is shown. -/
theorem exec_queryByEmail_of_reads {email : String} (hemail : Reads r "email" email) :
    exec (queryByEmail s r) x =
      match s.backend.byEmail x.world.accounts email with
      | .ok user => (.ok (shown user.json .ok), x.recording .ok)
      | .error e => (.error (.error e.toPipeline), x) := by
  simp only [queryByEmail, exec_bind, exec_getContext x hcontext, exec_param hemail, exec_get,
    exec_orFail]
  cases s.backend.byEmail x.world.accounts email with
  | error e => rfl
  | ok user => exact exec_respond (by decide) user.json x

/-- The account of an email is shown if it is there. -/
theorem exec_queryByEmail :
    Declines x (exec (queryByEmail s r) x) ∨
      ∃ user : Accounts.User, Shows user.json x (exec (queryByEmail s r) x) := by
  by_cases hreads : ∃ email, Reads r "email" email
  · obtain ⟨email, hemail⟩ := hreads
    rw [exec_queryByEmail_of_reads hcontext s x hemail]
    cases s.backend.byEmail x.world.accounts email with
    | error e => exact .inl ⟨rfl, _, rfl, (mild_toPipeline e).2⟩
    | ok user => exact .inr ⟨user, rfl, rfl⟩
  · simp only [queryByEmail, exec_bind, exec_getContext x hcontext]
    obtain ⟨e, he, hstatus⟩ := exec_param_of_not_reads (not_exists.1 hreads) x
    rw [he]
    exact .inl ⟨rfl, e, rfl, hstatus ▸ by decide⟩

/-- An identifier that is no text is not looked for, whoever asks. -/
theorem exec_queryById_of_unreadable (hparams : r.params = .unreadable) :
    exec (queryById s r) x = (.error (.error unreadableParam), x) := by
  simp only [queryById, exec_bind, exec_getContext x hcontext, exec_param_of_unreadable hparams]

/-- Nor is an email that is no text. -/
theorem exec_queryByEmail_of_unreadable (hparams : r.params = .unreadable) :
    exec (queryByEmail s r) x = (.error (.error unreadableParam), x) := by
  simp only [queryByEmail, exec_bind, exec_getContext x hcontext, exec_param_of_unreadable hparams]

variable {claims : Auth.Claims} (hclaims : r.claims = some claims)

include hclaims

/-- What the store knows of an identifier is shown to its owner and to an administrator. -/
theorem exec_queryById_of_self {id : String} (hid : Reads r "id" id)
    (hself : Auth.isSelfOrRole claims id Auth.admin = true) :
    exec (queryById s r) x =
      match s.backend.byId x.world.accounts id with
      | .ok user => (.ok (shown user.json .ok), x.recording .ok)
      | .error e => (.error (.error e.toPipeline), x) := by
  simp only [queryById, exec_bind, exec_getContext x hcontext, exec_param hid, hclaims, hself,
    if_true, exec_get, exec_orFail]
  cases s.backend.byId x.world.accounts id with
  | error e => rfl
  | ok user => exact exec_respond (by decide) user.json x

/-- An account is shown to nobody else. -/
theorem exec_queryById_of_not_self {id : String} (hid : Reads r "id" id)
    (hself : Auth.isSelfOrRole claims id Auth.admin = false) :
    exec (queryById s r) x = (.error (.error adminRequired), x) := by
  simp only [queryById, exec_bind, exec_getContext x hcontext, exec_param hid, hclaims, hself,
    Bool.false_eq_true, if_false, exec_fail]

/-- An account is shown to its owner or to an administrator if it is there. -/
theorem exec_queryById :
    Declines x (exec (queryById s r) x) ∨
      ∃ id user, Reads r "id" id ∧ Auth.isSelfOrRole claims id Auth.admin = true ∧
        s.backend.byId x.world.accounts id = .ok user ∧
        Shows user.json x (exec (queryById s r) x) := by
  by_cases hreads : ∃ id, Reads r "id" id
  · obtain ⟨id, hid⟩ := hreads
    -- The claims are looked at before the store is.
    cases hself : Auth.isSelfOrRole claims id Auth.admin with
    | false =>
      rw [exec_queryById_of_not_self hcontext s x hclaims hid hself]
      exact .inl ⟨rfl, _, rfl, by decide⟩
    | true =>
      rw [exec_queryById_of_self hcontext s x hclaims hid hself]
      cases huser : s.backend.byId x.world.accounts id with
      | error e => exact .inl ⟨rfl, _, rfl, (mild_toPipeline e).2⟩
      | ok user => exact .inr ⟨id, user, hid, hself, huser, rfl, rfl⟩
  · simp only [queryById, exec_bind, exec_getContext x hcontext]
    obtain ⟨e, he, hstatus⟩ := exec_param_of_not_reads (not_exists.1 hreads) x
    rw [he]
    exact .inl ⟨rfl, e, rfl, hstatus ▸ by decide⟩

end AccountService.Api
