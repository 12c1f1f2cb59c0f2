import AccountService.Proofs.Service.Grants
import AccountService.Proofs.Time.Instant

/-!
# Who may do what

The rules of access hold for every request to every site, since what a request is granted tells
who sent it. A run of requests therefore adds only accounts that administrators had created.

## Main definitions

* `Api.Creates` — an administrator has an account created
* `Api.Controlled` — the rules of access
* `Api.after` — the site after several requests

## Main statements

* `Api.creates_or_world_eq` — only an administrator changes the world
* `Api.controlled_serve` — the rules of access hold of every request
* `Api.creates_of_mem_after` — where the accounts come from
-/

namespace AccountService.Api

open Http Pipeline

/-! ### The rules of access -/

/-- An administrator has an account created: the bearer of claims asks for it, is shown it, and
it is put into the store, while nothing else changes. -/
structure Creates (engine : Auth.Engine) (site : Site (World Accounts.Store)) (clock : Instant)
    (r : Incoming) (result : Except Failure Response) (world' : World Accounts.Store)
    (c : Auth.Claims) (account : Accounts.Account) : Prop where
  method : r.method = "POST"
  path : r.path = "/v1/users"
  bears : Auth.Bears engine site.world.keys clock r.headers c
  admin : c.hasRole Auth.admin = true
  shown : result = .ok (shown account.user.json .created)
  world : world' = { site.world with accounts := site.world.accounts.insert account }
  /-- The identifier is drawn at random. If no account had it, all accounts stay as they are. -/
  fresh : site.world.accounts.findId? account.user.id = none →
    world'.accounts.accounts = site.world.accounts.accounts ++ [account]

/-- The rules of access for a request that comes to a site, has a result and leaves a world. -/
structure Controlled (engine : Auth.Engine) (site : Site (World Accounts.Store)) (clock : Instant)
    (r : Incoming) (result : Except Failure Response) (world' : World Accounts.Store) : Prop where
  /-- The world changes only where an administrator creates an account, and nothing else is
  answered as a creation. -/
  changes : (∃ c account, Creates engine site clock r result world' c account) ∨
    world' = site.world ∧ ∀ a, result = .ok a → a.status ≠ .created
  /-- Only an administrator passes the check of the role or sees the account of an email. -/
  administrators : ∀ (res : Resource) (a : Response), res.Proper → r.path.toList = res.path →
    (res = .testauth ∨ ∃ address, res = .email address) → result = .ok a → a.status = .ok →
    ∃ c, Auth.Bears engine site.world.keys clock r.headers c ∧ c.hasRole Auth.admin = true
  /-- Only an administrator or its owner sees an account, which is the one that is kept under the
  identifier in the path. -/
  owners : ∀ (id : List Char) (a : Response), (Resource.user id).Proper →
    r.path.toList = (Resource.user id).path → result = .ok a → a.status = .ok →
    ∃ c text key account, Auth.Bears engine site.world.keys clock r.headers c ∧
      decodeValue id = some text ∧ (c.hasRole Auth.admin = true ∨ c.subject = text) ∧
      Uuid.parse? text = some key ∧ site.world.accounts.findId? key = some account ∧
      a = (Api.shown account.user.json .ok).sentFor r.method
  /-- While the clock can be read and is not below the leeway, whoever bears no token that is
  validated is told so. -/
  unauthorized : ∀ res : Resource, res.Guarded → res.Proper → r.path.toList = res.path →
    res.Answers r.method → 0 ≤ clock.nanos → clock.isTimestamp = true →
    engine.leeway ≤ clock.seconds →
    (∀ c, ¬ Auth.Bears engine site.world.keys clock r.headers c) →
    ∃ a, result = .ok a ∧ a.status = .unauthorized
  /-- While the clock can be read and is not below the leeway, whoever bears a token that does not
  entitle is told so. -/
  forbidden : ∀ (res : Resource) (c : Auth.Claims), res.Guarded → res.Proper →
    r.path.toList = res.path → res.Answers r.method → 0 ≤ clock.nanos → clock.isTimestamp = true →
    engine.leeway ≤ clock.seconds →
    Auth.Bears engine site.world.keys clock r.headers c → ¬ res.Entitles c →
    (∀ id, res = .user id → decodeValue id ≠ none) →
    ∃ a, result = .ok a ∧ a.status = .forbidden
  /-- While the clock cannot be read, nobody is told anything. -/
  unanswered : ∀ res : Resource, res.Proper → r.path.toList = res.path → res.Answers r.method →
    ¬ (0 ≤ clock.nanos ∧ clock.isTimestamp = true) →
    ∃ message, result = .error (.panic (.text message))

theorem ne_created_of_code {a : Response} (h : 400 ≤ a.status.code) : a.status ≠ .created := by
  intro hcreated
  rw [hcreated] at h
  exact absurd h (by decide)

section Rules

variable {scheme : Accounts.PasswordScheme} {s : Settings Accounts.Store}

/-- What is granted to a request for the accounts is the creation of one. -/
theorem creates_of_granted {site : Site (World Accounts.Store)} {clock now : Instant} {r : Incoming}
    {outcome : Except Failure Response × Exchange (World Accounts.Store)}
    (hpath : r.path.toList = Resource.users.path) (hanswers : Resource.users.Answers r.method)
    (hgranted : Granted s r (opening site clock now r .users) outcome .users) :
    ∃ c account, Creates s.engine site clock r (.ok ((answerOf outcome.1).sentFor r.method))
      outcome.2.world c account := by
  obtain ⟨c, account, hbears, hrole, hshown, hcreated⟩ := hgranted
  -- Nothing that is bound to `POST` answers `HEAD`.
  have hmethod : r.method = "POST" := hanswers.resolve_right fun h => absurd h.2 (by decide)
  refine ⟨c, account,
    { method := hmethod
      path := String.toList_inj.1 hpath
      bears := hbears
      admin := hrole
      shown := ?_
      world := hcreated
      fresh := fun hfresh => ?_ }⟩
  · rw [hshown, hmethod]
    rfl
  · rw [hcreated]
    exact Accounts.Store.accounts_insert_of_findId?_eq_none hfresh

variable (hbackend : s.backend = .memory scheme) (site : Site (World Accounts.Store))
  (clock : Instant) (r : Incoming)

include hbackend

/-- The world changes only where an administrator creates an account. -/
theorem creates_or_world_eq :
    (∃ c account, Creates s.engine site clock r (site.run clock ((application s).serve r)).1
        (site.run clock ((application s).serve r)).2.1.world c account) ∨
      (site.run clock ((application s).serve r)).2.1.world = site.world ∧
        ∀ a, (site.run clock ((application s).serve r)).1 = .ok a → a.status ≠ .created := by
  obtain ⟨res, now, _, hpath, hanswers, _, hresult, hworld⟩ | ⟨hcode, hworld⟩ :=
    run_cases s site clock r
  · rw [hresult, hworld]
    obtain hdeclines | hgranted := outcome_cases clock now r res hbackend site
    · refine .inr ⟨hdeclines.1, ?_⟩
      intro a ha
      cases ha
      rw [status_sentFor]
      exact ne_created_of_code hdeclines.code_answerOf
    -- Only a request for the accounts is granted anything but to be shown a value.
    · by_cases hres : res = .users
      · subst hres
        exact .inl (creates_of_granted hpath hanswers hgranted)
      · obtain ⟨v, hsame, hshown⟩ := hgranted.shows hres
        refine .inr ⟨hsame, ?_⟩
        intro a ha
        cases ha
        rw [hshown, status_sentFor]
        exact show Status.ok ≠ Status.created by decide
  · exact .inr ⟨hworld, fun a ha => ne_created_of_code (hcode a ha)⟩

variable {site clock r} {a : Response}
  (hresult : (site.run clock ((application s).serve r)).1 = .ok a) (hstatus : a.status = .ok)

include hresult hstatus

/-- What a resource granted to a request that is answered with the status 200. -/
theorem granted_of_status_ok {res : Resource} (hproper : res.Proper)
    (hpath : r.path.toList = res.path) :
    ∃ now, Granted s r (opening site clock now r res) (outcome s site clock now r res) res ∧
      a = (answerOf (outcome s site clock now r res).1).sentFor r.method := by
  have hcode : a.status.code < 400 := by rw [hstatus]; decide
  obtain ⟨res', now, hproper', hpath', _, hgranted, hsent⟩ :=
    granted_of_success hbackend hresult hcode
  -- The path names one resource, so it is this one that was granted.
  obtain rfl := hproper.eq_of_path_eq hproper' (hpath.symm.trans hpath')
  exact ⟨now, hgranted, hsent⟩

/-- Only an administrator passes the check of the role or sees the account of an email. -/
theorem administrator_of_status_ok {res : Resource} (hproper : res.Proper)
    (hpath : r.path.toList = res.path) (hres : res = .testauth ∨ ∃ address, res = .email address) :
    ∃ c, Auth.Bears s.engine site.world.keys clock r.headers c ∧ c.hasRole Auth.admin = true := by
  obtain ⟨now, hgranted, _⟩ := granted_of_status_ok hbackend hresult hstatus hproper hpath
  rcases hres with rfl | ⟨address, rfl⟩
  · obtain ⟨c, _, hbears, hrole, _⟩ := hgranted
    exact ⟨c, hbears, hrole⟩
  · obtain ⟨c, _, hbears, hrole, _⟩ := hgranted
    exact ⟨c, hbears, hrole⟩

/-- Only an administrator or its owner sees an account. -/
theorem owner_of_status_ok {id : List Char} (hproper : (Resource.user id).Proper)
    (hpath : r.path.toList = (Resource.user id).path) :
    ∃ c text key account, Auth.Bears s.engine site.world.keys clock r.headers c ∧
      decodeValue id = some text ∧ (c.hasRole Auth.admin = true ∨ c.subject = text) ∧
      Uuid.parse? text = some key ∧ site.world.accounts.findId? key = some account ∧
      a = (shown account.user.json .ok).sentFor r.method := by
  obtain ⟨now, hgranted, hsent⟩ := granted_of_status_ok hbackend hresult hstatus hproper hpath
  obtain ⟨c, text, user, hbears, hdecode, hself, huser, _, hshown⟩ := hgranted
  rw [hbackend] at huser
  obtain ⟨key, account, hkey, haccount, rfl⟩ := Accounts.Store.byId_eq_ok_iff.1 huser
  refine ⟨c, text, key, account, hbears, hdecode, ?_, hkey, haccount, ?_⟩
  · rw [Auth.isSelfOrRole, Bool.or_eq_true, beq_iff_eq] at hself
    exact hself.symm
  · rw [hsent, hshown]
    rfl

end Rules

section Refusals

variable (s : Settings Accounts.Store) (site : Site (World Accounts.Store)) {clock : Instant}
  {r : Incoming} {res : Resource} (hguarded : res.Guarded) (hproper : res.Proper)
  (hpath : r.path.toList = res.path) (hanswers : res.Answers r.method)
  (hepoch : 0 ≤ clock.nanos) (hrange : clock.isTimestamp = true)

include hguarded hproper hpath hanswers hepoch hrange

/-- Whoever bears no token that is validated is told so. -/
theorem unauthorized_of_not_bears
    (hnone : ∀ c, ¬ Auth.Bears s.engine site.world.keys clock r.headers c) :
    ∃ a, (site.run clock ((application s).serve r)).1 = .ok a ∧ a.status = .unauthorized := by
  have hclock := Clock.read_eq_ok_iff.2 ⟨rfl, hepoch, hrange⟩
  obtain ⟨hresult, _⟩ := run_of_answers s site clock hproper hpath hanswers hclock
  obtain ⟨err, herr⟩ := Auth.exists_presented_eq_error hnone
  obtain ⟨y, hrefused, -⟩ := outcome_of_presented_eq_error s clock hguarded herr
  rw [hrefused] at hresult
  have hstatus : err.toRequest.status = .unauthorized :=
    (Auth.Error.status_toRequest err).trans (Auth.status_of_presented herr)
  exact ⟨_, hresult, (status_sentFor _ _).trans hstatus⟩

/-- Whoever bears a token that does not entitle is told so. -/
theorem forbidden_of_not_entitles {c : Auth.Claims}
    (hbears : Auth.Bears s.engine site.world.keys clock r.headers c) (hnot : ¬ res.Entitles c)
    (hreadable : ∀ id, res = .user id → decodeValue id ≠ none) :
    ∃ a, (site.run clock ((application s).serve r)).1 = .ok a ∧ a.status = .forbidden := by
  have hclock := Clock.read_eq_ok_iff.2 ⟨rfl, hepoch, hrange⟩
  obtain ⟨hresult, _⟩ := run_of_answers s site clock hproper hpath hanswers hclock
  obtain ⟨y, hrefused, -⟩ := outcome_of_not_entitles s clock hguarded hbears hnot
  rw [hrefused, if_pos (Resource.readable_iff.2 hreadable)] at hresult
  exact ⟨_, hresult, status_sentFor _ _⟩

end Refusals

/-- The rules of access hold of every request to the service, whenever it comes and whatever was
done before it. -/
theorem controlled_serve (engine : Auth.Engine) (scheme : Accounts.PasswordScheme)
    (issuer : String) (tokenTtl : Span) :
    ∃ a, app ⟨engine, .memory scheme, issuer, tokenTtl⟩ = .ok a ∧
      ∀ (site : Site (World Accounts.Store)) (clock : Instant) (r : Incoming),
        Controlled engine site clock r (site.run clock (a.serve r)).1
          (site.run clock (a.serve r)).2.1.world := by
  refine ⟨_, app_eq_ok _, fun site clock r => ?_⟩
  let s : Settings Accounts.Store := ⟨engine, .memory scheme, issuer, tokenTtl⟩
  have hbackend : s.backend = .memory scheme := rfl
  exact
    { changes := creates_or_world_eq hbackend site clock r
      administrators := fun res a hproper hpath hres hresult hstatus =>
        administrator_of_status_ok hbackend hresult hstatus hproper hpath hres
      owners := fun id a hproper hpath hresult hstatus =>
        owner_of_status_ok hbackend hresult hstatus hproper hpath
      unauthorized := fun res hguarded hproper hpath hanswers hepoch hrange _ hnone =>
        unauthorized_of_not_bears s site hguarded hproper hpath hanswers hepoch hrange hnone
      forbidden := fun res c hguarded hproper hpath hanswers hepoch hrange _ hbears hnot
          hreadable =>
        forbidden_of_not_entitles s site hguarded hproper hpath hanswers hepoch hrange hbears hnot
          hreadable
      unanswered := by
        intro res hproper hpath hanswers hunreadable
        cases hclock : Clock.read clock with
        | ok now => exact absurd (Clock.read_eq_ok_iff.1 hclock).2 hunreadable
        | error message =>
          exact ⟨message, (run_of_fault s site clock hproper hpath hanswers hclock).1⟩ }

/-- Before 1970 the clock cannot be read, so that a request without a token gets no answer at
all from a route that wants one. -/
theorem not_unauthorized_before_1970 :
    ∃ a, app ⟨.sample (some "accounts"), .memory .digest, "accounts", .ofSeconds 3600⟩ = .ok a ∧
      let site : Site (World Accounts.Store) :=
        ⟨.zero, false, .ofSeed [], ⟨Auth.Engine.sampleKeys, .empty⟩⟩
      let clock := Instant.ofSeconds (-1)
      let r : Incoming := ⟨"GET", "/v1/testauth", [], [], none⟩
      (∀ c, ¬ Auth.Bears (.sample (some "accounts")) site.world.keys clock r.headers c) ∧
        (site.run clock (a.serve r)).1 =
          .error (.panic (.text "system time before Unix epoch: SystemTimeError(1s)")) := by
  refine ⟨_, app_eq_ok _, ?_, ?_⟩
  · rintro c ⟨token, htoken, _⟩
    cases htoken
  · have hproper : Resource.testauth.Proper := trivial
    have hfault : Clock.read (.ofSeconds (-1)) =
        .error "system time before Unix epoch: SystemTimeError(1s)" := by decide
    exact (run_of_fault _ _ _ hproper rfl (.inl rfl) hfault).1

/-! ### Where the accounts come from -/

/-- The site after requests, each at its own reading of the clock. -/
def after {σ : Type} (a : App (World σ)) (site : Site (World σ)) :
    List (Instant × Incoming) → Site (World σ)
  | [] => site
  | (clock, r) :: rest => after a (site.run clock (a.serve r)).2.1 rest

section Runs

variable {scheme : Accounts.PasswordScheme} {s : Settings Accounts.Store}
  (hbackend : s.backend = .memory scheme)

include hbackend

/-- No request changes the keys. -/
theorem keys_after (rs : List (Instant × Incoming)) (site : Site (World Accounts.Store)) :
    (after (application s) site rs).world.keys = site.world.keys := by
  -- On the requests, from whatever site they start.
  induction rs generalizing site with
  | nil => rfl
  | cons timed rest ih =>
    obtain ⟨clock, r⟩ := timed
    rw [after, ih]
    obtain ⟨c, account, hcreates⟩ | ⟨hsame, _⟩ :=
      creates_or_world_eq hbackend site clock r
    · rw [hcreates.world]
    · rw [hsame]

/-- An account that is there after some requests was there before or was created by one of them,
on behalf of an administrator. -/
theorem creates_of_mem_after {account : Accounts.Account} (rs : List (Instant × Incoming))
    (site : Site (World Accounts.Store))
    (h : account ∈ (after (application s) site rs).world.accounts.accounts) :
    account ∈ site.world.accounts.accounts ∨
      ∃ before clock r later c, rs = before ++ (clock, r) :: later ∧
        Creates s.engine (after (application s) site before) clock r
          ((after (application s) site before).run clock ((application s).serve r)).1
          ((after (application s) site before).run clock ((application s).serve r)).2.1.world
          c account := by
  induction rs generalizing site with
  | nil => exact .inl h
  | cons timed rest ih =>
    obtain ⟨clock, r⟩ := timed
    -- It was there after the first request, or one of the later ones created it.
    obtain hbefore | ⟨before, clock', r', later, c, rfl, hcreates⟩ := ih _ h
    · obtain ⟨c, created, hcreates⟩ | ⟨hsame, _⟩ :=
        creates_or_world_eq hbackend site clock r
      · rw [hcreates.world] at hbefore
        obtain rfl | hthere := Accounts.Store.eq_or_mem_of_mem_insert hbefore
        · exact .inr ⟨[], clock, r, rest, c, rfl, hcreates⟩
        · exact .inl hthere
      · rw [hsame] at hbefore
        exact .inl hbefore
    · exact .inr ⟨(clock, r) :: before, clock', r', later, c, rfl, hcreates⟩

end Runs

end AccountService.Api
