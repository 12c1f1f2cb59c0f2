import AccountService.Proofs.Auth.Issuer
import AccountService.Proofs.Service.Tokens

/-!
# What a caller without authority learns

Whoever sends no token that is validated, or one that gives no authority over what is asked for,
is told the same by every service with the same engine, keys and clock, whatever accounts it
keeps. The answer depends on the headers, on the method and on where the path leads, and not on
the identifier, the email or the submission that is asked about.

## Main definitions

* `Api.Outsider` — a request without authority
* `Api.denial`, `Api.verdict` — what such a request is told
* `Api.Akin` — requests that differ only in what they ask about

## Main statements

* `Api.outcome_of_outsider` — what becomes of such a request inside the layers
* `Api.run_of_outsider` — it is told the verdict, and the world is as it was
* `Api.discreet_serve` — no state of the accounts can be told from another by it
-/

namespace AccountService.Api

open Http Pipeline

variable {σ : Type}

/-! ### What a request without authority is told -/

/-- A request has no authority over what it asks for: it bears no token that is validated, or one
without the role of an administrator, and it does not ask for the account of the subject. -/
def Outsider (e : Auth.Engine) (keys : Auth.KeyStore) (clock : Instant) (r : Incoming) : Prop :=
  (∀ c, ¬ Auth.Bears e keys clock r.headers c) ∨
    ∃ c, Auth.Bears e keys clock r.headers c ∧ c.hasRole Auth.admin = false ∧
      ∀ id, (Resource.user id).Proper → r.path.toList = (Resource.user id).path →
        decodeValue id ≠ some c.subject

/-- Why a request without authority is refused by a resource that wants a token: for what its
headers lack, for an identifier that is no text, or for want of authority. -/
def denial (e : Auth.Engine) (keys : Auth.KeyStore) (clock : Instant) (headers : List Header)
    (res : Resource) : Pipeline.Error :=
  match Auth.presented e keys clock headers with
  | .error err => .ofAuth err
  | .ok _ => if res.Readable then adminRequired else unreadableParam

/-- The answer to a request without authority for a resource. -/
def verdict (e : Auth.Engine) (keys : Auth.KeyStore) (clock : Instant) (r : Incoming)
    (res : Resource) : Except Failure Response :=
  if res.Answers r.method then
    match Clock.read clock with
    | .error message => .error (.panic (.text message))
    | .ok _ =>
      let reply := if res.endpoint = .test then shown (.record [("status", .text "OK")]) .ok
        else answerOf (.error (.error (denial e keys clock r.headers res)))
      .ok (reply.sentFor r.method)
  else .ok ⟨.methodNotAllowed, [("allow", allowed [res.endpoint.method])], ""⟩

/-- Requests that differ at most in their bodies and in what they ask about: they have the same
method and headers, and their paths lead to one endpoint. Identifiers that are no texts are told
from others once a token is accepted. -/
structure Akin (e : Auth.Engine) (keys : Auth.KeyStore) (clock : Instant) (r r' : Incoming) :
    Prop where
  method : r.method = r'.method
  headers : r.headers = r'.headers
  path : r.path = r'.path ∨ ∃ res res' : Resource, res.Proper ∧ r.path.toList = res.path ∧
    res'.Proper ∧ r'.path.toList = res'.path ∧ res.endpoint = res'.endpoint ∧
    ((∃ c, Auth.Bears e keys clock r.headers c) → (res.Readable ↔ res'.Readable))

variable (s : Settings σ) {site : Site (World σ)} {clock now : Instant} {r : Incoming}
  {res : Resource}

/-- Inside the layers a request without authority is denied by a resource that wants a token. -/
theorem outcome_of_outsider (now : Instant) (hguarded : res.Guarded) (hproper : res.Proper)
    (hpath : r.path.toList = res.path)
    (houtsider : Outsider s.engine site.world.keys clock r) :
    ∃ y, outcome s site clock now r res =
        (.error (.error (denial s.engine site.world.keys clock r.headers res)), y) ∧
      y.world = site.world := by
  rcases houtsider with hnone | ⟨c, hbears, hrole, hstranger⟩
  · obtain ⟨err, herr⟩ := Auth.exists_presented_eq_error hnone
    have hdenial : denial s.engine site.world.keys clock r.headers res = .ofAuth err := by
      simp only [denial, herr]
    rw [hdenial]
    exact outcome_of_presented_eq_error s now hguarded herr
  · obtain ⟨kid, hpresented⟩ := Auth.bears_iff.1 hbears
    have hdenial : denial s.engine site.world.keys clock r.headers res =
        if res.Readable then adminRequired else unreadableParam := by
      simp only [denial, hpresented]
    have hnot : ¬ res.Entitles c := by
      have hadmin : ¬ c.hasRole Auth.admin = true := Bool.eq_false_iff.1 hrole
      cases res with
      | user id => exact not_or.2 ⟨hadmin, hstranger id hproper hpath⟩
      | _ => exact hadmin
    rw [hdenial]
    exact outcome_of_not_entitles s now hguarded hbears hnot

theorem eq_test_or_guarded (h : res ≠ .token) :
    res = .test ∨ res.Guarded ∧ res.endpoint ≠ .test := by
  cases res with
  | test => exact .inl rfl
  | token => exact absurd rfl h
  | _ => exact .inr ⟨trivial, nofun⟩

/-- A request without authority is told the verdict, and the world is as it was. -/
theorem run_of_outsider (hproper : res.Proper) (hpath : r.path.toList = res.path)
    (htoken : res ≠ .token) (houtsider : Outsider s.engine site.world.keys clock r) :
    (site.run clock ((application s).serve r)).1 = verdict s.engine site.world.keys clock r res ∧
      (site.run clock ((application s).serve r)).2.1.world = site.world := by
  by_cases hanswers : res.Answers r.method
  · cases hclock : Clock.read clock with
    | error message =>
      simp only [verdict, if_pos hanswers, hclock]
      exact run_of_fault s site clock hproper hpath hanswers hclock
    | ok now =>
      obtain ⟨hresult, hworld⟩ := run_of_answers s site clock hproper hpath hanswers hclock
      rw [hresult, hworld]
      simp only [verdict, if_pos hanswers, hclock]
      rcases eq_test_or_guarded htoken with rfl | ⟨hguarded, htest⟩
      · obtain ⟨hsame, hshown⟩ := exec_test (context_arriving site clock now r .test)
          (opening site clock now r .test)
        have houtcome : (outcome s site clock now r .test).1 = _ := hshown
        rw [houtcome]
        exact ⟨rfl, hsame⟩
      · obtain ⟨y, hdenied, hsame⟩ := outcome_of_outsider s now hguarded hproper hpath houtsider
        rw [hdenied, if_neg htest]
        exact ⟨rfl, hsame⟩
  · obtain ⟨hresult, hsite⟩ := run_of_not_answers s site clock hproper hpath hanswers
    rw [hresult, hsite, verdict, if_neg hanswers]
    exact ⟨rfl, rfl⟩

/-- The verdict is the same for requests that are akin. -/
theorem verdict_congr {e : Auth.Engine} {keys : Auth.KeyStore} {r r' : Incoming}
    {res res' : Resource} (hmethod : r.method = r'.method) (hheaders : r.headers = r'.headers)
    (hendpoint : res.endpoint = res'.endpoint)
    (hreadable : (∃ c, Auth.Bears e keys clock r.headers c) → (res.Readable ↔ res'.Readable)) :
    verdict e keys clock r res = verdict e keys clock r' res' := by
  have hanswers : res.Answers r.method ↔ res'.Answers r'.method := by
    rw [Resource.Answers, Resource.Answers, hmethod, hendpoint]
  have hdenial : denial e keys clock r.headers res = denial e keys clock r'.headers res' := by
    rw [← hheaders, denial, denial]
    cases hpresented : Auth.presented e keys clock r.headers with
    | error err => rfl
    | ok accepted =>
      simp only [hreadable ⟨accepted.2, Auth.bears_iff.2 ⟨accepted.1, hpresented⟩⟩]
  rw [hmethod] at hanswers
  simp only [verdict, hdenial, hmethod, hendpoint]
  exact if_congr hanswers rfl rfl

section Akin

variable {e : Auth.Engine} {keys : Auth.KeyStore} {r r' : Incoming} (h : Akin e keys clock r r')

include h

/-- A request that is akin to one for a resource is one for a resource of the same endpoint. -/
theorem Akin.resource (hproper : res.Proper) (hpath : r.path.toList = res.path) :
    ∃ res' : Resource, res'.Proper ∧ r'.path.toList = res'.path ∧ res.endpoint = res'.endpoint ∧
      ((∃ c, Auth.Bears e keys clock r.headers c) → (res.Readable ↔ res'.Readable)) := by
  obtain hsame | ⟨res₁, res', hproper₁, hpath₁, hproper', hpath', hendpoint, hreadable⟩ := h.path
  · exact ⟨res, hproper, hsame ▸ hpath, rfl, fun _ => Iff.rfl⟩
  · obtain rfl := hproper.eq_of_path_eq hproper₁ (hpath.symm.trans hpath₁)
    exact ⟨res', hproper', hpath', hendpoint, hreadable⟩

/-- A request that is akin to one for nothing has the same path. -/
theorem Akin.path_eq (hnone : ∀ res : Resource, res.Proper → r.path.toList ≠ res.path) :
    r.path = r'.path := by
  obtain hsame | ⟨res, -, hproper, hpath, -⟩ := h.path
  · exact hsame
  · exact absurd hpath (hnone res hproper)

end Akin

/-- What a request without authority is told does not depend on the accounts: two services with
the same engine, keys and clock, whatever store each of them has and whatever accounts are in it,
give the same answer to requests that are akin, and neither world changes. -/
theorem discreet_serve {τ : Type} (engine : Auth.Engine) (keys : Auth.KeyStore) (clock : Instant)
    (backend : Accounts.Backend σ) (backend' : Accounts.Backend τ) (issuer issuer' : String)
    (ttl ttl' : Span) :
    ∃ a a', app ⟨engine, backend, issuer, ttl⟩ = .ok a ∧
      app ⟨engine, backend', issuer', ttl'⟩ = .ok a' ∧
      ∀ (site : Site (World σ)) (site' : Site (World τ)) (r r' : Incoming),
        site.world.keys = keys → site'.world.keys = keys → r.path ≠ "/v1/users/token" →
        Outsider engine keys clock r → Outsider engine keys clock r' →
        Akin engine keys clock r r' →
          (site.run clock (a.serve r)).1 = (site'.run clock (a'.serve r')).1 ∧
            (site.run clock (a.serve r)).2.1.world = site.world ∧
            (site'.run clock (a'.serve r')).2.1.world = site'.world := by
  refine ⟨_, _, app_eq_ok _, app_eq_ok _, ?_⟩
  rintro site site' r r' rfl hkeys htoken houtsider houtsider' hakin
  by_cases hnamed : ∃ res : Resource, res.Proper ∧ r.path.toList = res.path
  · obtain ⟨res, hproper, hpath⟩ := hnamed
    obtain ⟨res', hproper', hpath', hendpoint, hreadable⟩ := hakin.resource hproper hpath
    have hres : res ≠ .token := by
      rintro rfl
      exact htoken (String.toList_inj.1 hpath)
    have hres' : res' ≠ .token := by
      rintro rfl
      exact hres (eq_token_of_endpoint_eq hendpoint)
    obtain ⟨hresult, hworld⟩ := run_of_outsider ⟨engine, backend, issuer, ttl⟩
      hproper hpath hres houtsider
    rw [← hkeys] at houtsider'
    obtain ⟨hresult', hworld'⟩ := run_of_outsider ⟨engine, backend', issuer', ttl'⟩
      hproper' hpath' hres' houtsider'
    refine ⟨?_, hworld, hworld'⟩
    rw [hresult, hresult', hkeys]
    exact verdict_congr hakin.method hakin.headers hendpoint hreadable
  · have hnone : ∀ res : Resource, res.Proper → r.path.toList ≠ res.path :=
      fun res hproper hpath => hnamed ⟨res, hproper, hpath⟩
    have hnone' : ∀ res : Resource, res.Proper → r'.path.toList ≠ res.path := by
      rwa [← hakin.path_eq hnone]
    obtain ⟨hresult, hsite⟩ := run_of_no_path ⟨engine, backend, issuer, ttl⟩ site clock hnone
    obtain ⟨hresult', hsite'⟩ := run_of_no_path ⟨engine, backend', issuer', ttl'⟩ site' clock hnone'
    exact ⟨hresult.trans hresult'.symm, congrArg Site.world hsite, congrArg Site.world hsite'⟩

/-! ### A caller with a token that gives no authority -/

/-- A request for an account with the token of somebody else, who has no role. -/
def curious (id : String) : Incoming :=
  ⟨"GET", "/v1/users/" ++ id,
    [⟨"Authorization", Octets.ofText ("Bearer " ++ Auth.Engine.anonymousToken)⟩], [], none⟩

theorem bearerToken_curious (id : String) :
    Auth.bearerToken (curious id).headers = .ok Auth.Engine.anonymousToken := by
  refine Auth.bearerToken_of_presents (Auth.firstHeader?_authorization _) ?_ fun c hc => ?_
  · intro hempty
    have hchars := congrArg String.toList hempty
    simp [Auth.Engine.anonymousToken, Token.join] at hchars
  · rw [Auth.Engine.anonymousToken, Auth.Engine.headerOf, Auth.Engine.anonymousPayload] at hc
    exact Auth.isGraph_of_mem_join hc

theorem bears_curious (id : String) :
    Auth.Bears (.sample (some "accounts")) Auth.Engine.sampleKeys (.ofSeconds 1700000000)
      (curious id).headers Auth.Engine.anonymousClaims :=
  ⟨_, bearerToken_curious id, Auth.Engine.validate_eq_ok_iff.2
    ⟨"key", Auth.Engine.accept_anonymousToken (some "accounts")⟩⟩

theorem outsider_curious {id : String} (hother : decodeValue id.toList ≠ some "user-1") :
    Outsider (.sample (some "accounts")) Auth.Engine.sampleKeys (.ofSeconds 1700000000)
      (curious id) := by
  refine .inr ⟨_, bears_curious id, by decide, fun id' _ hpath => ?_⟩
  rw [curious, String.toList_append] at hpath
  obtain rfl : id.toList = id' := List.append_cancel_left hpath
  exact hother

/-- The account that is there is not told from one that is not, nor is the site that has it from
the one that has not. -/
theorem discreet_serve_adaSite :
    ∃ a, app ⟨.sample (some "accounts"), .memory .plain, "accounts", .ofSeconds 3600⟩ = .ok a ∧
      (∃ user, adaSite.world.accounts.byId "00000000-0000-4000-8000-000000000000" = .ok user) ∧
      Outsider (.sample (some "accounts")) adaSite.world.keys (.ofSeconds 1700000000)
        (curious "00000000-0000-4000-8000-000000000000") ∧
      (adaSite.run (.ofSeconds 1700000000)
          (a.serve (curious "00000000-0000-4000-8000-000000000000"))).1 =
        (emptySite.run (.ofSeconds 1700000000) (a.serve (curious "nobody"))).1 := by
  obtain ⟨a, a', ha, ha', h⟩ := discreet_serve (.sample (some "accounts")) Auth.Engine.sampleKeys
    (.ofSeconds 1700000000) (.memory .plain) (.memory .plain) "accounts" "accounts"
    (.ofSeconds 3600) (.ofSeconds 3600)
  obtain rfl := Except.ok.inj (ha.symm.trans ha')
  have hthere : Outsider (.sample (some "accounts")) Auth.Engine.sampleKeys
      (.ofSeconds 1700000000) (curious "00000000-0000-4000-8000-000000000000") :=
    outsider_curious (by decide)
  have hakin : Akin (.sample (some "accounts")) Auth.Engine.sampleKeys (.ofSeconds 1700000000)
      (curious "00000000-0000-4000-8000-000000000000") (curious "nobody") :=
    ⟨rfl, rfl, .inr ⟨.user "00000000-0000-4000-8000-000000000000".toList, .user "nobody".toList,
      ⟨by decide, by decide, by decide⟩, by decide, ⟨by decide, by decide, by decide⟩, by decide, rfl,
      fun _ => by decide⟩⟩
  exact ⟨a, ha, ⟨_, rfl⟩, hthere,
    (h adaSite emptySite _ _ rfl rfl (by decide) hthere (outsider_curious (by decide)) hakin).1⟩

end AccountService.Api
