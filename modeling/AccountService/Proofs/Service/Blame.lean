import AccountService.Proofs.Service.Access
import AccountService.Proofs.Service.Conduct
import AccountService.Proofs.Service.Discretion

/-!
# Whom an answer blames

An answer blames the service if its status is 500 or above, and otherwise the request if it blames
anybody. The service takes the blame for one kind of request only: where the path names an account
by something that is no text, and the layers of the route have let the request in. All other
requests of any run are answered with a status below 500, as long as passwords can be hashed.

## Main definitions

* `Api.Resource.Garbled` — what a path gives for a parameter is no text
* `Api.Resource.Admits` — the claims that get past the layers of a resource
* `Api.Stumbles` — the requests that the service takes the blame for

## Main statements

* `Api.outcome_of_garbled` — a request that the service takes the blame for
* `Api.code_lt_of_readable`, `Api.code_lt_of_not_admitted` — requests that it does not
* `Api.blames_serve`, `Api.blames_run` — every request, and every request of a run
* `Api.blamed_for_garbled_path` — a mistake of a caller that is reported as one of the service
-/

namespace AccountService

namespace Accounts

/-- Whatever the store in memory reports, it is not a password that cannot be hashed if every
password can be. -/
theorem ne_hash_of_reports {scheme : PasswordScheme} {e : Error}
    (hhash : ∀ salt password, ∃ h, scheme.hash salt password = .ok h)
    (h : Api.Reports (.memory scheme) e) (detail : String) : e ≠ .hash detail := by
  rintro rfl
  cases h with
  | @create n accounts entropy _ hcreate =>
    have hmade : (Store.create scheme n accounts entropy).1 = .error (.hash detail) := hcreate
    rcases hprepare : n.prepare scheme entropy with ⟨err | a, left⟩
    · rw [Store.create_of_prepare_eq_error accounts hprepare] at hmade
      obtain rfl := Except.error.inj hmade
      rw [NewUser.prepare] at hprepare
      obtain ⟨password, hpassword⟩ := hhash (entropy.take saltSize).1 n.password
      cases hvalidate : n.validate with
      | error fields => simp [hvalidate] at hprepare
      | ok _ => simp [hvalidate, hpassword] at hprepare
    · rw [Store.create_of_prepare_eq_ok accounts hprepare] at hmade
      rcases henroll : accounts.enroll a with ⟨err | u, store⟩
      · obtain ⟨-, rfl, -⟩ := Store.enroll_eq_error_iff.1 henroll
        rw [henroll] at hmade
        cases hmade
      · rw [henroll] at hmade
        cases hmade
  | @byId accounts id _ hbyId =>
    have hshown : accounts.byId id = .error (.hash detail) := hbyId
    rw [Store.byId] at hshown
    split at hshown
    · cases hshown
    · split at hshown <;> cases hshown
  | @byEmail accounts email _ hbyEmail =>
    have hshown : accounts.byEmail email = .error (.hash detail) := hbyEmail
    rw [Store.byEmail] at hshown
    split at hshown <;> cases hshown
  | authenticate hauthenticate => cases Store.eq_of_authenticate_eq_error hauthenticate

end Accounts

namespace Api

open Http Pipeline

/-! ### Paths that are no text -/

namespace Resource

/-- What the path gives for a parameter is no text. -/
def Garbled (res : Resource) : Prop := ∃ value ∈ res.taken, decodeValue value = none

/-- The claims that get past the layers of a guarded resource. For an account of an identifier that
is any: its handler asks whose they are only when it has read the identifier. -/
def Admits (c : Auth.Claims) : Resource → Prop
  | user _ => True
  | _ => c.hasRole Auth.admin = true

end Resource

/-- A request stumbles over its path: it names an account by something that is no text, and its
token gets it past the layers of the route. -/
def Stumbles (engine : Auth.Engine) (keys : Auth.KeyStore) (clock : Instant) (r : Incoming) : Prop :=
  ∃ res : Resource, res.Proper ∧ r.path.toList = res.path ∧ res.Answers r.method ∧ res.Garbled ∧
    ∃ c, Auth.Bears engine keys clock r.headers c ∧ res.Admits c

variable {σ : Type} (s : Settings σ) (site : Site (World σ)) (clock now : Instant) (r : Incoming)
  {res : Resource}

/-- Where the path can be read, every parameter of the route has a value. -/
theorem exists_reads_arriving (hreadable : ¬ res.Garbled) {name : String}
    (hname : name ∈ res.endpoint.pattern.names) :
    ∃ text, Reads (arriving site clock now r res) name text := by
  have hdecodes (value : List Char) (hvalue : value ∈ res.taken) :
      ∃ text, decodeValue value = some text :=
    Option.ne_none_iff_exists'.1 fun hnone => hreadable ⟨value, hvalue, hnone⟩
  cases res with
  | user id =>
    obtain rfl := List.mem_singleton.1 hname
    obtain ⟨text, htext⟩ := hdecodes id (List.mem_singleton_self _)
    exact ⟨text, (reads_iff_of_params rfl).2 htext⟩
  | email address =>
    obtain rfl := List.mem_singleton.1 hname
    obtain ⟨text, htext⟩ := hdecodes address (List.mem_singleton_self _)
    exact ⟨text, (reads_iff_of_params rfl).2 htext⟩
  | _ => exact (List.not_mem_nil hname).elim

variable {site clock r}

/-- A request that gets past the layers of its route with a path that is no text is an error inside
the service. -/
theorem outcome_of_garbled {c : Auth.Claims} (hgarbled : res.Garbled)
    (hbears : Auth.Bears s.engine site.world.keys clock r.headers c) (hadmits : res.Admits c) :
    ∃ y, outcome s site clock now r res = (.error (.error unreadableParam), y) := by
  obtain ⟨value, hvalue, hnone⟩ := hgarbled
  cases res with
  | user id =>
    obtain rfl := List.mem_singleton.1 hvalue
    obtain ⟨event, hnext⟩ := exec_authenticate_of_bears s.engine World.keys (queryById s)
      (arriving site clock now r (.user value)) (opening site clock now r (.user value)) hbears
    have hunreadable := exec_queryById_of_unreadable
      (r := { arriving site clock now r (.user value) with claims := some c })
      (context_arriving site clock now r (.user value)) s
      ((opening site clock now r (.user value)).logging event)
      (readParams_of_decodeValue_eq_none hnone)
    exact ⟨_, hnext.trans hunreadable⟩
  | email address =>
    obtain rfl := List.mem_singleton.1 hvalue
    obtain ⟨event, hnext⟩ := exec_admin_of_hasRole s.engine (queryByEmail s)
      (arriving site clock now r (.email value)) (opening site clock now r (.email value)) hbears
      hadmits
    have hunreadable := exec_queryByEmail_of_unreadable
      (r := { arriving site clock now r (.email value) with claims := some c })
      (context_arriving site clock now r (.email value)) s
      ((opening site clock now r (.email value)).logging event)
      (readParams_of_decodeValue_eq_none hnone)
    exact ⟨_, hnext.trans hunreadable⟩
  | _ => exact (List.not_mem_nil hvalue).elim

/-- A request with a path that is no text, but without a token that gets it past the layers of its
route, is refused as any other would be. -/
theorem code_lt_of_not_admitted (hgarbled : res.Garbled)
    (hnot : ∀ c, Auth.Bears s.engine site.world.keys clock r.headers c → ¬ res.Admits c) :
    (answerOf (outcome s site clock now r res).1).status.code < 500 := by
  have hguarded : res.Guarded := by
    obtain ⟨value, hvalue, -⟩ := hgarbled
    cases res with
    | user id => trivial
    | email address => trivial
    | _ => exact (List.not_mem_nil hvalue).elim
  by_cases hbears : ∃ c, Auth.Bears s.engine site.world.keys clock r.headers c
  · obtain ⟨c, hc⟩ := hbears
    cases res with
    | user id => exact absurd trivial (hnot c hc)
    | email address =>
      obtain ⟨y, hy, -⟩ := outcome_of_not_entitles s now hguarded hc (hnot c hc)
      have hreadable : (Resource.email address).Readable := trivial
      rw [hy, if_pos hreadable]
      exact of_decide_eq_true rfl
    | _ => exact hgarbled.elim fun _ h => (List.not_mem_nil h.1).elim
  · obtain ⟨err, herr⟩ := Auth.exists_presented_eq_error (not_exists.1 hbears)
    obtain ⟨y, hy, -⟩ := outcome_of_presented_eq_error s now hguarded herr
    have hstatus : err.toRequest.status = .unauthorized :=
      (Auth.Error.status_toRequest err).trans (Auth.status_of_presented herr)
    rw [hy]
    exact show err.toRequest.status.code < 500 from hstatus ▸ by decide

variable {s}

/-- A request whose path can be read is served or finds itself at fault. -/
theorem code_lt_of_readable
    (hreproaches : ∀ e, Reports s.backend e → e.toPipeline.Reproaches) (hreadable : ¬ res.Garbled) :
    (answerOf (outcome s site clock now r res).1).status.code < 500 := by
  have hendures : Enduring (fun _ => True) fun _ : Exchange (World σ) => True :=
    ⟨fun _ _ => trivial, fun _ _ => trivial, fun _ _ _ => trivial⟩
  have hinner := ensures_inner hendures ⟨fun _ he => he, hreproaches⟩
    (context_arriving site clock now r res) res.endpoint
    (fun name hname hnone => by
      obtain ⟨text, htext⟩ := exists_reads_arriving site clock now r hreadable hname
      exact absurd htext (hnone text))
  obtain ⟨-, ⟨a, hanswered, -, hsucceeds⟩ | ⟨e, hfailed, q, rfl, -, hcode⟩⟩ :=
    hinner (opening site clock now r res) trivial
  · rw [outcome, hanswered]
    exact Nat.lt_trans hsucceeds (by decide)
  · rw [outcome, hfailed]
    exact hcode

/-! ### Requests and runs -/

/-- A request stumbles over the path of the resource that it names, if over any. -/
theorem stumbles_iff {engine : Auth.Engine} {keys : Auth.KeyStore} {clock : Instant} {r : Incoming}
    (hproper : res.Proper) (hpath : r.path.toList = res.path) :
    Stumbles engine keys clock r ↔ res.Answers r.method ∧ res.Garbled ∧
      ∃ c, Auth.Bears engine keys clock r.headers c ∧ res.Admits c := by
  constructor
  · rintro ⟨res', hproper', hpath', hstumbles⟩
    obtain rfl := hproper.eq_of_path_eq hproper' (hpath.symm.trans hpath')
    exact hstumbles
  · intro hstumbles
    exact ⟨res, hproper, hpath, hstumbles⟩

/-- Whatever a request says, it is answered while the clock can be read, and the answer blames the
service exactly if the request stumbles over its path. Such a request is told nothing but that
there was an error. -/
theorem blames_serve {s : Settings σ}
    (hreproaches : ∀ e, Reports s.backend e → e.toPipeline.Reproaches) (site : Site (World σ))
    {clock now : Instant} (hclock : Clock.read clock = .ok now) (r : Incoming) :
    ∃ a, (site.run clock ((application s).serve r)).1 = .ok a ∧
      (500 ≤ a.status.code ↔ Stumbles s.engine site.world.keys clock r) ∧
      (Stumbles s.engine site.world.keys clock r →
        a = internalErrorResponse.sentFor r.method) := by
  by_cases hnamed : ∃ res : Resource, res.Proper ∧ r.path.toList = res.path
  · obtain ⟨res, hproper, hpath⟩ := hnamed
    rw [stumbles_iff hproper hpath]
    by_cases hanswers : res.Answers r.method
    · obtain ⟨hresult, -⟩ := run_of_answers s site clock hproper hpath hanswers hclock
      refine ⟨_, hresult, ?_⟩
      rw [status_sentFor]
      by_cases hstumbles : res.Garbled ∧
          ∃ c, Auth.Bears s.engine site.world.keys clock r.headers c ∧ res.Admits c
      · obtain ⟨hgarbled, c, hbears, hadmits⟩ := hstumbles
        obtain ⟨y, hy⟩ := outcome_of_garbled s now hgarbled hbears hadmits
        rw [hy]
        have hcode : 500 ≤ internalErrorResponse.status.code := of_decide_eq_true rfl
        exact ⟨iff_of_true hcode ⟨hanswers, hgarbled, c, hbears, hadmits⟩, fun _ => rfl⟩
      · have hcode : (answerOf (outcome s site clock now r res).1).status.code < 500 := by
          by_cases hgarbled : res.Garbled
          · exact code_lt_of_not_admitted s now hgarbled fun c hbears hadmits =>
              hstumbles ⟨hgarbled, c, hbears, hadmits⟩
          · exact code_lt_of_readable now hreproaches hgarbled
        exact ⟨iff_of_false (Nat.not_le.2 hcode) fun h => hstumbles h.2,
          fun h => absurd h.2 hstumbles⟩
    · obtain ⟨hresult, -⟩ := run_of_not_answers s site clock hproper hpath hanswers
      have hcode : ¬ 500 ≤ Status.methodNotAllowed.code := by decide
      exact ⟨_, hresult, iff_of_false hcode fun h => hanswers h.1,
        fun h => absurd h.1 hanswers⟩
  · have hnone : ∀ res : Resource, res.Proper → r.path.toList ≠ res.path :=
      fun res hproper hpath => hnamed ⟨res, hproper, hpath⟩
    have hnot : ¬ Stumbles s.engine site.world.keys clock r :=
      fun ⟨res, hproper, hpath, _⟩ => hnone res hproper hpath
    obtain ⟨hresult, -⟩ := run_of_no_path s site clock hnone
    exact ⟨_, hresult, iff_of_false (by decide) hnot, fun h => absurd h hnot⟩

/-- In any run of requests, each is answered, and its answer blames the service exactly if it
stumbles over its path, as long as passwords can be hashed and the clock can be read. -/
theorem blames_run (engine : Auth.Engine) (scheme : Accounts.PasswordScheme) (issuer : String)
    (tokenTtl : Span) (hhash : ∀ salt password, ∃ h, scheme.hash salt password = .ok h) :
    ∃ a, app ⟨engine, .memory scheme, issuer, tokenTtl⟩ = .ok a ∧
      ∀ (start : Site (World Accounts.Store)) (rs : List (Instant × Incoming)),
        (∀ t ∈ rs, 0 ≤ t.1.nanos ∧ t.1.isTimestamp = true ∧ engine.leeway ≤ t.1.seconds) →
        ∀ before clock r later, rs = before ++ (clock, r) :: later →
          ∃ response, ((after a start before).run clock (a.serve r)).1 = .ok response ∧
            (500 ≤ response.status.code ↔ Stumbles engine start.world.keys clock r) ∧
            (Stumbles engine start.world.keys clock r →
              response = internalErrorResponse.sentFor r.method) := by
  refine ⟨_, app_eq_ok _, ?_⟩
  rintro start rs hclocks before clock r later rfl
  obtain ⟨hepoch, hrange, -⟩ := hclocks (clock, r)
    (List.mem_append_right _ List.mem_cons_self)
  have hclock := Clock.read_eq_ok_iff.2 ⟨rfl, hepoch, hrange⟩
  let s : Settings Accounts.Store := ⟨engine, .memory scheme, issuer, tokenTtl⟩
  have hreproaches : ∀ e, Reports s.backend e → e.toPipeline.Reproaches :=
    fun _ he => reproaches_toPipeline (Accounts.ne_hash_of_reports hhash he)
  -- No request takes the keys away, so the token is checked under those that were there at first.
  rw [← keys_after (s := s) rfl before start]
  exact blames_serve hreproaches (after (application s) start before) hclock r

/-- A run of two requests with the token of somebody who has no role: one asks for the account of
somebody else, and one for an account by an octet that is no text. -/
def garbledRun : List (Instant × Incoming) :=
  [(.ofSeconds 1700000000, curious "nobody"), (.ofSeconds 1700000000, curious "%FF")]

theorem stumbles_garbled :
    Stumbles (.sample (some "accounts")) Auth.Engine.sampleKeys (.ofSeconds 1700000000)
      (curious "%FF") := by
  have hproper : (Resource.user "%FF".toList).Proper := ⟨by decide, by decide, by decide⟩
  have hgarbled : (Resource.user "%FF".toList).Garbled :=
    ⟨_, List.mem_singleton_self _, by decide⟩
  exact (stumbles_iff hproper (by decide)).2
    ⟨.inl rfl, hgarbled, _, bears_curious "%FF", trivial⟩

theorem not_stumbles_nobody :
    ¬ Stumbles (.sample (some "accounts")) Auth.Engine.sampleKeys (.ofSeconds 1700000000)
      (curious "nobody") := by
  have hproper : (Resource.user "nobody".toList).Proper := ⟨by decide, by decide, by decide⟩
  rw [stumbles_iff hproper (by decide)]
  rintro ⟨-, ⟨value, hvalue, hnone⟩, -⟩
  obtain rfl := List.mem_singleton.1 hvalue
  exact absurd hnone (by decide)

theorem blames_run_garbledRun :
    (∀ salt password, ∃ h, Accounts.PasswordScheme.plain.hash salt password = .ok h) ∧
      (∀ t ∈ garbledRun, 0 ≤ t.1.nanos ∧ t.1.isTimestamp = true ∧
        (Auth.Engine.sample (some "accounts")).leeway ≤ t.1.seconds) ∧
      ∃ a, app ⟨.sample (some "accounts"), .memory .plain, "accounts", .ofSeconds 3600⟩ = .ok a ∧
        (∃ response, (adaSite.run (.ofSeconds 1700000000) (a.serve (curious "nobody"))).1 =
          .ok response ∧ response.status.code < 500) ∧
        ((after a adaSite [(.ofSeconds 1700000000, curious "nobody")]).run
          (.ofSeconds 1700000000) (a.serve (curious "%FF"))).1 = .ok internalErrorResponse := by
  have hhash (salt : Octets) (password : String) :
      ∃ h, Accounts.PasswordScheme.plain.hash salt password = .ok h := ⟨_, rfl⟩
  have hclocks : ∀ t ∈ garbledRun, 0 ≤ t.1.nanos ∧ t.1.isTimestamp = true ∧
      (Auth.Engine.sample (some "accounts")).leeway ≤ t.1.seconds := by decide
  obtain ⟨a, ha, h⟩ := blames_run (.sample (some "accounts")) .plain "accounts" (.ofSeconds 3600)
    hhash
  obtain ⟨first, hfirst, hiff, -⟩ := h adaSite garbledRun hclocks [] _ _ _ rfl
  obtain ⟨second, hsecond, -, hhidden⟩ := h adaSite garbledRun hclocks [_] _ _ [] rfl
  obtain rfl := hhidden stumbles_garbled
  exact ⟨hhash, hclocks, a, ha, ⟨first, hfirst, Nat.not_le.1 fun hcode =>
    not_stumbles_nobody (hiff.1 hcode)⟩, hsecond⟩

/-- What a caller gets wrong is reported as a fault of the service: whoever has a token of any kind
and asks for an account by an octet that is no text is told that there was an internal error. -/
theorem blamed_for_garbled_path :
    ∃ a, app ⟨.sample (some "accounts"), .memory .plain, "accounts", .ofSeconds 3600⟩ = .ok a ∧
      ∃ response, (adaSite.run (.ofSeconds 1700000000) (a.serve (curious "%FF"))).1 = .ok response ∧
        500 ≤ response.status.code := by
  have hclock : Clock.read (.ofSeconds 1700000000) = .ok (.ofSeconds 1700000000) := by decide
  let s : Settings Accounts.Store :=
    ⟨.sample (some "accounts"), .memory .plain, "accounts", .ofSeconds 3600⟩
  have hreproaches : ∀ e, Reports s.backend e → e.toPipeline.Reproaches := fun _ he =>
    reproaches_toPipeline (Accounts.ne_hash_of_reports (fun _ _ => ⟨_, rfl⟩) he)
  obtain ⟨response, hresponse, hiff, -⟩ := blames_serve hreproaches adaSite hclock (curious "%FF")
  exact ⟨_, app_eq_ok s, response, hresponse, hiff.2 stumbles_garbled⟩

end Api

end AccountService
