import AccountService.Proofs.Accounts.Listing
import AccountService.Proofs.Pipeline.Paired
import AccountService.Proofs.Service.Availability
import AccountService.Proofs.Service.Logins

/-!
# Passwords are not observable

Whoever presents credentials that are those of no account is told one thing, whichever of them is
wrong. And apart from tokens, everything that the service answers can be read off what is shown of
its accounts: two services whose accounts differ only in their passwords answer every run of other
requests alike.

## Main definitions

* `Api.Stranger` — headers with credentials that are those of no account
* `Api.Alike` — states of two services whose accounts differ at most in their passwords
* `Api.DrawAlike` — runs of requests that draw the same identifiers

## Main statements

* `Api.run_of_stranger` — a request for a token with such credentials
* `Api.paired_inner` — no endpoint but that of tokens tells two such states apart
* `Api.alike_serve` — one request to two such services
* `Api.alike_answers` — a run of requests
* `Api.passwords_unobservable` — what is told of passwords
-/

namespace AccountService

open Http Pipeline
open Accounts (NewUser Store)

namespace Api

variable {s : Settings Store}

/-! ### Credentials that are those of no account -/

/-- The credentials in headers are those of no account: none has the email, or the password is not
that of the one that has it. -/
def Stranger (scheme : Accounts.PasswordScheme) (accounts : Store) (headers : List Header) : Prop :=
  ∃ email password, Auth.basicCredentials headers = .ok (email, password) ∧
    ∀ a ∈ accounts.accounts, Text.eqIgnoringCase a.user.email email = true →
      scheme.verify password a.password = false

/-- What a stranger is told. -/
def refusal : Response := (RequestError.unauthorized "authentication failed").response

/-- A request for a token with the credentials of no account is told one thing, as soon as the clock
can be read. -/
theorem run_of_stranger {scheme : Accounts.PasswordScheme} (hbackend : s.backend = .memory scheme)
    (site : Site (World Store)) (clock : Instant) {r : Incoming} (hmethod : r.method = "GET")
    (hpath : r.path = "/v1/users/token")
    (hstranger : Stranger scheme site.world.accounts r.headers) :
    (site.run clock ((application s).serve r)).1 =
      match Clock.read clock with
      | .ok _ => .ok refusal
      | .error message => .error (.panic (.text message)) := by
  have hproper : Resource.token.Proper := trivial
  have hnamed : r.path.toList = Resource.token.path := congrArg String.toList hpath
  cases hclock : Clock.read clock with
  | error message => exact (run_of_fault s site clock hproper hnamed (.inl hmethod) hclock).1
  | ok now =>
    rw [run_of_get s site clock hproper hnamed rfl hmethod hclock]
    obtain ⟨email, password, hcredentials, hnone⟩ := hstranger
    have hrefused : s.backend.authenticate site.world.accounts email password =
        .error .invalidCredentials := by
      cases hauthenticate : s.backend.authenticate site.world.accounts email password with
      | error err =>
        rw [hbackend] at hauthenticate
        rw [Store.eq_of_authenticate_eq_error hauthenticate]
      | ok user =>
        -- An account that is found has the email, and its password would be the one presented.
        rw [hbackend] at hauthenticate
        obtain ⟨a, hfound, hverify, -⟩ := Store.authenticate_eq_ok_iff.1 hauthenticate
        have hmem := List.mem_of_find?_eq_some hfound
        have hemail := List.find?_some hfound
        rw [hnone a hmem hemail] at hverify
        cases hverify
    have houtcome : (outcome s site clock now r .token).1 =
        .error (.error Accounts.Error.invalidCredentials.toPipeline) :=
      congrArg Prod.fst (exec_token_of_authenticate_eq_error
        (context_arriving site clock now r .token) hcredentials hrefused)
    rw [houtcome]
    rfl

/-! ### Two services whose accounts differ in their passwords -/

/-- Worlds with the same keys, and with accounts that differ at most in their passwords. -/
structure Alike (w w' : World Store) : Prop where
  keys : w.keys = w'.keys
  listing : w.accounts.listing = w'.accounts.listing

/-- States of two services at one time, with such worlds. -/
structure Abreast (x y : Exchange (World Store)) : Prop where
  clock : x.clock = y.clock
  world : Alike x.world y.world

/-- Such states in which the same identifier would be drawn for an account, if one is to be
created. -/
def Poised (p : Endpoint) (x y : Exchange (World Store)) : Prop :=
  Abreast x y ∧ (p = .create → Accounts.drawnFor x.entropy = Accounts.drawnFor y.entropy)

theorem Poised.abreast {p : Endpoint} (x y : Exchange (World Store)) (h : Poised p x y) :
    Abreast x y := h.1

section Handlers

variable {σ τ α : Type} {pre rest : Exchange σ → Exchange τ → Prop}
  (hrest : ∀ x y, pre x y → rest x y)

include hrest

theorem paired_orFail (result : Except Accounts.Error α) :
    Paired pre rest (orFail result) (orFail result) fun v w x y => v = w ∧ pre x y := by
  cases result with
  | ok a => exact paired_pure fun _ _ h => ⟨rfl, h⟩
  | error e => exact paired_fail _ hrest

variable {r r' : Request} (hsiblings : Siblings r r')

include hsiblings

theorem paired_newUser :
    Paired pre rest (newUser r) (newUser r') fun v w x y => v = w ∧ pre x y := by
  rw [newUser, newUser, ← hsiblings.incoming]
  split
  · exact paired_fail _ hrest
  · split
    · exact paired_pure fun _ _ h => ⟨rfl, h⟩
    · exact paired_fail _ hrest

theorem paired_param (name : String) :
    Paired pre rest (param r name) (param r' name) fun v w x y => v = w ∧ pre x y := by
  rw [param, param, ← hsiblings.params]
  split
  · exact paired_fail _ hrest
  · exact paired_fail _ hrest
  · split
    · exact paired_pure fun _ _ h => ⟨rfl, h⟩
    · exact paired_fail _ hrest

end Handlers

section Endpoints

variable {scheme : Accounts.PasswordScheme} (hbackend : s.backend = .memory scheme)
  {r r' : Request} (hsiblings : Siblings r r')

include hsiblings

theorem paired_test :
    Paired Abreast Abreast (Api.test r) (Api.test r') (Same Abreast) :=
  (paired_getContext hsiblings).bind fun _ _ => paired_respond _ _ fun _ _ h => ⟨h.clock, h.world⟩

include hbackend

theorem paired_queryByEmail :
    Paired Abreast Abreast (queryByEmail s r) (queryByEmail s r') (Same Abreast) := by
  apply (paired_getContext hsiblings).bind
  intro _ _
  apply (paired_param (fun _ _ h => h) hsiblings "email").bind
  intro email _
  apply Paired.of_and
  rintro rfl
  apply paired_get.bind
  intro x y
  apply Paired.of_and
  intro habreast
  have hfound : s.backend.byEmail x.world.accounts email =
      s.backend.byEmail y.world.accounts email := by
    rw [hbackend]
    exact Store.byEmail_congr habreast.world.listing email
  rw [hfound]
  apply (paired_orFail (fun _ _ h => h) _).bind
  intro user _
  apply Paired.of_and
  rintro rfl
  exact paired_respond _ _ fun _ _ h => ⟨h.clock, h.world⟩

theorem paired_queryById :
    Paired Abreast Abreast (queryById s r) (queryById s r') (Same Abreast) := by
  apply (paired_getContext hsiblings).bind
  intro _ _
  apply (paired_param (fun _ _ h => h) hsiblings "id").bind
  intro id _
  apply Paired.of_and
  rintro rfl
  rw [← hsiblings.claims]
  cases r.claims with
  | none => exact paired_fail _ fun _ _ h => h
  | some claims =>
    dsimp only
    split
    · apply paired_get.bind
      intro x y
      apply Paired.of_and
      intro habreast
      have hfound : s.backend.byId x.world.accounts id = s.backend.byId y.world.accounts id := by
        rw [hbackend]
        exact Store.byId_congr habreast.world.listing id
      rw [hfound]
      apply (paired_orFail (fun _ _ h => h) _).bind
      intro user _
      apply Paired.of_and
      rintro rfl
      exact paired_respond _ _ fun _ _ h => ⟨h.clock, h.world⟩
    · exact paired_fail _ fun _ _ h => h

/-- A creation with the same identifier drawn is answered alike, whatever salts are drawn. -/
theorem paired_create
    (hhash : ∀ salt password, ∃ hash, scheme.hash salt password = .ok hash) :
    Paired (Poised .create) Abreast (Api.create s r) (Api.create s r') (Same Abreast) := by
  apply (paired_getContext hsiblings).bind
  intro context context'
  apply (paired_newUser Poised.abreast hsiblings).bind
  intro n _
  apply Paired.of_and
  rintro rfl
  apply paired_get.bind
  intro x y
  apply Paired.of_and
  rintro ⟨habreast, hdrawn⟩
  obtain ⟨hresult, hlisting⟩ := Store.create_congr hhash habreast.world.listing (n := n) rfl
    (fun _ => rfl) fun _ => hdrawn rfl
  rw [hbackend]
  simp only [Accounts.Backend.memory]
  rw [← hresult]
  have hset : Abreast
      { x with
        entropy := (x.world.accounts.create scheme n x.entropy).2.2
        world := { x.world with accounts := (x.world.accounts.create scheme n x.entropy).2.1 } }
      { y with
        entropy := (y.world.accounts.create scheme n y.entropy).2.2
        world := { y.world with accounts := (y.world.accounts.create scheme n y.entropy).2.1 } } :=
    ⟨habreast.clock, habreast.world.keys, hlisting⟩
  have hlogging (e e' : Log.Event) : Paired Abreast Abreast (log e) (log e')
      fun _ _ => Abreast :=
    paired_log e e' fun _ _ h => ⟨h.clock, h.world⟩
  apply (paired_set hset).bind
  intro _ _
  apply (paired_orFail (fun _ _ h => h) _).bind
  intro user _
  apply Paired.of_and
  rintro rfl
  apply (hlogging _ _).bind
  intro _ _
  exact paired_respond _ _ fun _ _ h => ⟨h.clock, h.world⟩

/-- No endpoint but that of tokens tells two services apart whose accounts differ only in their
passwords. -/
theorem paired_inner (hhash : ∀ salt password, ∃ hash, scheme.hash salt password = .ok hash)
    {p : Endpoint} (hp : p ≠ .token) :
    Paired (Poised p) Abreast (p.inner s r) (p.inner s r') (Same Abreast) := by
  have hkeys (x y : Exchange (World Store)) (h : Poised p x y) :
      x.world.keys = y.world.keys ∧ x.clock = y.clock := ⟨h.1.world.keys, h.1.clock⟩
  have hlogging (x y : Exchange (World Store)) (e e' : Log.Event) (h : Poised p x y) :
      Poised p (x.logging e) (y.logging e') := ⟨⟨h.1.clock, h.1.world⟩, h.2⟩
  cases p with
  | token => exact absurd rfl hp
  | test => exact (paired_test hsiblings).of_pre Poised.abreast
  | testauth =>
    apply paired_authenticate hsiblings _ _ _ hkeys hlogging Poised.abreast
    intro q q' hq
    apply paired_authorize hq _ Poised.abreast
    exact (paired_test hq).of_pre Poised.abreast
  | create =>
    apply paired_authenticate hsiblings _ _ _ hkeys hlogging Poised.abreast
    intro q q' hq
    apply paired_authorize hq _ Poised.abreast
    exact paired_create hbackend hq hhash
  | byId =>
    apply paired_authenticate hsiblings _ _ _ hkeys hlogging Poised.abreast
    intro q q' hq
    exact (paired_queryById hbackend hq).of_pre Poised.abreast
  | byEmail =>
    apply paired_authenticate hsiblings _ _ _ hkeys hlogging Poised.abreast
    intro q q' hq
    apply paired_authorize hq _ Poised.abreast
    exact (paired_queryByEmail hbackend hq).of_pre Poised.abreast

end Endpoints

/-! ### Requests to two services -/

/-- The identifier that is drawn for the account that the next request has created, if it has one
created. -/
def nextDrawn (site : Site (World Store)) : Uuid :=
  Accounts.drawnFor (Uuid.draw site.entropy).2

section Requests

variable {scheme : Accounts.PasswordScheme} (hbackend : s.backend = .memory scheme)
  (hhash : ∀ salt password, ∃ hash, scheme.hash salt password = .ok hash)

include hbackend hhash

/-- One request, other than for a token, to two services whose accounts differ only in their
passwords: it is answered alike, and the accounts still differ only in their passwords. -/
theorem alike_serve {site site' : Site (World Store)} (halike : Alike site.world site'.world)
    (clock : Instant) {r : Incoming} (htoken : r.path ≠ "/v1/users/token")
    (hdrawn : r.method = "POST" → r.path = "/v1/users" → nextDrawn site = nextDrawn site') :
    (site.run clock ((application s).serve r)).1 = (site'.run clock ((application s).serve r)).1 ∧
      Alike (site.run clock ((application s).serve r)).2.1.world
        (site'.run clock ((application s).serve r)).2.1.world := by
  by_cases hnamed : ∃ res : Resource, res.Proper ∧ r.path.toList = res.path
  · obtain ⟨res, hproper, hpath⟩ := hnamed
    by_cases hanswers : res.Answers r.method
    · cases hclock : Clock.read clock with
      | error message =>
        obtain ⟨hresult, hworld⟩ := run_of_fault s site clock hproper hpath hanswers hclock
        obtain ⟨hresult', hworld'⟩ := run_of_fault s site' clock hproper hpath hanswers hclock
        rw [hresult, hresult', hworld, hworld']
        exact ⟨rfl, halike⟩
      | ok now =>
        obtain ⟨hresult, hworld⟩ := run_of_answers s site clock hproper hpath hanswers hclock
        obtain ⟨hresult', hworld'⟩ := run_of_answers s site' clock hproper hpath hanswers hclock
        rw [hresult, hresult', hworld, hworld']
        have hendpoint : res.endpoint ≠ .token := by
          intro h
          obtain rfl := eq_token_of_endpoint_eq h
          exact htoken (String.toList_inj.1 hpath)
        have hsiblings : Siblings (arriving site clock now r res)
            (arriving site' clock now r res) :=
          ⟨rfl, rfl, rfl, ⟨_, context_arriving site clock now r res⟩,
            ⟨_, context_arriving site' clock now r res⟩⟩
        have hpoised : Poised res.endpoint (opening site clock now r res)
            (opening site' clock now r res) := by
          refine ⟨⟨rfl, halike⟩, fun hcreate => ?_⟩
          obtain rfl := eq_users_of_endpoint_eq hcreate
          -- Nothing that is bound to `POST` answers `HEAD`.
          have hmethod : r.method = "POST" :=
            hanswers.resolve_right fun h => absurd h.2 (by decide)
          exact hdrawn hmethod (String.toList_inj.1 hpath)
        have hpaired := paired_inner hbackend hsiblings hhash hendpoint _ _ hpoised
        have houtcome : (outcome s site clock now r res).1 = (outcome s site' clock now r res).1 ∧
            Alike (outcome s site clock now r res).2.world
              (outcome s site' clock now r res).2.world := by
          obtain ⟨a, _, ha, ha', rfl, habreast⟩ | ⟨f, hf, hf', habreast⟩ := hpaired
          · exact ⟨ha.trans ha'.symm, habreast.world⟩
          · exact ⟨hf.trans hf'.symm, habreast.world⟩
        exact ⟨by rw [houtcome.1], houtcome.2⟩
    · obtain ⟨hresult, hsite⟩ := run_of_not_answers s site clock hproper hpath hanswers
      obtain ⟨hresult', hsite'⟩ := run_of_not_answers s site' clock hproper hpath hanswers
      rw [hresult, hresult', hsite, hsite']
      exact ⟨rfl, halike⟩
  · have hnone : ∀ res : Resource, res.Proper → r.path.toList ≠ res.path :=
      fun res hproper hpath => hnamed ⟨res, hproper, hpath⟩
    obtain ⟨hresult, hsite⟩ := run_of_no_path s site clock hnone
    obtain ⟨hresult', hsite'⟩ := run_of_no_path s site' clock hnone
    rw [hresult, hresult', hsite, hsite']
    exact ⟨rfl, halike⟩

end Requests

/-! ### Runs of requests to two services -/

/-- Along a run of requests to two services, the same identifier is drawn for every account that a
request asks to be created. -/
def DrawAlike (a : App (World Store)) :
    List (Instant × Incoming) → Site (World Store) → Site (World Store) → Prop
  | [], _, _ => True
  | (clock, r) :: rest, site, site' =>
    (r.method = "POST" → r.path = "/v1/users" → nextDrawn site = nextDrawn site') ∧
      DrawAlike a rest (site.run clock (a.serve r)).2.1 (site'.run clock (a.serve r)).2.1

/-- A run of requests, none of them for a token, to two services whose accounts differ only in their
passwords is answered alike. -/
theorem alike_answers {scheme : Accounts.PasswordScheme} (hbackend : s.backend = .memory scheme)
    (hhash : ∀ salt password, ∃ hash, scheme.hash salt password = .ok hash)
    {rs : List (Instant × Incoming)} (htoken : ∀ t ∈ rs, t.2.path ≠ "/v1/users/token")
    {site site' : Site (World Store)} (halike : Alike site.world site'.world)
    (hdrawn : DrawAlike (application s) rs site site') :
    answers (application s) site rs = answers (application s) site' rs := by
  -- On the requests, from whatever sites with such accounts they start.
  induction rs generalizing site site' with
  | nil => rfl
  | cons timed rest ih =>
    obtain ⟨clock, r⟩ := timed
    obtain ⟨hnext, hlater⟩ := hdrawn
    obtain ⟨hresult, halike'⟩ := alike_serve hbackend hhash halike clock
      (htoken _ List.mem_cons_self) hnext
    rw [answers, answers, hresult,
      ih (fun t ht => htoken t (List.mem_cons_of_mem _ ht)) halike' hlater]

/-- Passwords are not observable. Two requests for a token with the credentials of no account are
answered alike, whichever part of the credentials is wrong, and whenever the clock can be read by one
and the same refusal. And two services that were filled with accounts that differ only in their
passwords, under the same identifiers, answer every run of other requests alike, as long as they
draw the same identifiers for the accounts that are created on the way. -/
theorem passwords_unobservable (engine : Auth.Engine) (scheme : Accounts.PasswordScheme)
    (issuer : String) (tokenTtl : Span) :
    ∃ a, app ⟨engine, .memory scheme, issuer, tokenTtl⟩ = .ok a ∧
      (∀ (site : Site (World Store)) (clock : Instant) (r r' : Incoming), r.method = "GET" →
        r.path = "/v1/users/token" → r'.method = "GET" → r'.path = "/v1/users/token" →
        Stranger scheme site.world.accounts r.headers →
        Stranger scheme site.world.accounts r'.headers →
          (site.run clock (a.serve r)).1 = (site.run clock (a.serve r')).1 ∧
            ∀ now, Clock.read clock = .ok now → (site.run clock (a.serve r)).1 = .ok refusal) ∧
      ((∀ salt password, ∃ hash, scheme.hash salt password = .ok hash) →
        ∀ calls calls', Accounts.Paralleled calls calls' →
          ∀ (site site' : Site (World Store)), site.world.keys = site'.world.keys →
            site.world.accounts = Store.filled scheme calls →
            site'.world.accounts = Store.filled scheme calls' →
            ∀ rs : List (Instant × Incoming), (∀ t ∈ rs, t.2.path ≠ "/v1/users/token") →
              DrawAlike a rs site site' → answers a site rs = answers a site' rs) := by
  refine ⟨_, app_eq_ok _, ?_, ?_⟩
  · intro site clock r r' hmethod hpath hmethod' hpath' hstranger hstranger'
    have hresult := run_of_stranger (s := ⟨engine, .memory scheme, issuer, tokenTtl⟩) rfl site clock
      hmethod hpath hstranger
    have hresult' := run_of_stranger (s := ⟨engine, .memory scheme, issuer, tokenTtl⟩) rfl site
      clock hmethod' hpath' hstranger'
    refine ⟨hresult.trans hresult'.symm, fun now hclock => ?_⟩
    rw [hresult, hclock]
  · intro hhash calls calls' hparalleled site site' hkeys haccounts haccounts' rs htoken hdrawn
    have halike : Alike site.world site'.world := by
      refine ⟨hkeys, ?_⟩
      rw [haccounts, haccounts']
      exact Store.listing_filled hhash hparalleled
    exact alike_answers rfl hhash htoken halike hdrawn

/-- A service that was filled with one account, with a source that draws one identifier over and
over. -/
def filledSite (password : String) : Site (World Store) :=
  ⟨.zero, false, ⟨fun _ => 0, 0⟩, ⟨Auth.Engine.sampleKeys,
    Store.filled .plain [(submissionOf "ada@example.org" password, ⟨fun _ => 0, 0⟩)]⟩⟩

/-- A submission without a token, and a request for the account without one. -/
def prying : List (Instant × Incoming) :=
  [(.ofSeconds 1700000000, ⟨"POST", "/v1/users", [], [], none⟩),
    (.ofSeconds 1700000001, ⟨"GET", "/v1/users/00000000-0000-4000-8000-000000000000", [], [], none⟩)]

/-- Two passwords of one account: neither a wrong one nor an unknown email tells which of them the
account has, nor do other requests. -/
theorem passwords_unobservable_filledSite :
    ∃ a, app ⟨.sample (some "accounts"), .memory .plain, "accounts", .ofSeconds 3600⟩ = .ok a ∧
      Stranger .plain (filledSite "secret").world.accounts
        (login "ada@example.org" "hidden").headers ∧
      Stranger .plain (filledSite "secret").world.accounts
        (login "eve@example.org" "secret").headers ∧
      ((filledSite "secret").run (.ofSeconds 1700000000)
        (a.serve (login "ada@example.org" "hidden"))).1 = .ok refusal ∧
      (filledSite "secret").world.accounts ≠ (filledSite "hidden").world.accounts ∧
      DrawAlike a prying (filledSite "secret") (filledSite "hidden") ∧
      answers a (filledSite "secret") prying = answers a (filledSite "hidden") prying := by
  obtain ⟨a, ha, hrefused, halike⟩ := passwords_unobservable (.sample (some "accounts")) .plain
    "accounts" (.ofSeconds 3600)
  have hwrong : Stranger .plain (filledSite "secret").world.accounts
      (login "ada@example.org" "hidden").headers :=
    ⟨_, _, Auth.basicCredentials_of_presents (presentsPair_login _ _) (by decide) (by decide),
      by decide +kernel⟩
  have hunknown : Stranger .plain (filledSite "secret").world.accounts
      (login "eve@example.org" "secret").headers :=
    ⟨_, _, Auth.basicCredentials_of_presents (presentsPair_login _ _) (by decide) (by decide),
      by decide +kernel⟩
  have hparalleled : Accounts.Paralleled
      [(submissionOf "ada@example.org" "secret", ⟨fun _ => 0, 0⟩)]
      [(submissionOf "ada@example.org" "hidden", ⟨fun _ => 0, 0⟩)] :=
    .cons ⟨⟨rfl, rfl, rfl, by decide, by decide, rfl, rfl⟩, fun _ => rfl⟩ .nil
  have hdrawn : DrawAlike a prying (filledSite "secret") (filledSite "hidden") :=
    ⟨fun _ _ => rfl, fun hmethod => absurd hmethod (by decide), trivial⟩
  refine ⟨a, ha, hwrong, hunknown, ?_, by decide +kernel, hdrawn, ?_⟩
  · exact (hrefused _ _ _ _ rfl rfl rfl rfl hwrong hunknown).2 (.ofSeconds 1700000000) (by decide)
  · exact halike (fun salt password => ⟨_, rfl⟩) _ _ hparalleled (filledSite "secret")
      (filledSite "hidden") rfl rfl rfl prying (by decide) hdrawn

end Api

end AccountService
