import AccountService.Proofs.Auth.Issuance
import AccountService.Proofs.Service.Emails

/-!
# Accounts shown to their owners

An account is kept under its identifier, and every text that denotes the identifier finds it.
Whether whoever asks is the owner, however, is decided by the text: a token names its owner by the
written form of the identifier. So an owner is shown the account under that form, and an
administrator under every form, while an owner who asks by another form is refused.

## Main definitions

* `Api.userTarget` — the target that asks for an identifier
* `Api.HandedOut` — a token that the service has handed out to an account
* `Api.OwnAccount` — what the bearer of such a token is told about the account

## Main statements

* `Api.HandedOut.written` — what a token that was handed out says of the account
* `Api.outcome_user_of_bears` — what whoever asks for an identifier comes to
* `Api.ownAccount_serve` — every site that the service can come to
* `Api.not_shown_to_owner` — an owner who is refused
-/

namespace AccountService

namespace Accounts.Store

/-- An account of an orderly store is found under the texts that denote its identifier. -/
theorem Orderly.byId_eq_ok_iff {s : Store} (h : s.Orderly) {a : Account} (ha : a ∈ s.accounts)
    {text : String} : s.byId text = .ok a.user ↔ Uuid.Denotes text a.user.id := by
  rw [Store.byId_eq_ok_iff]
  simp only [Uuid.parse?_eq_some_iff]
  constructor
  · rintro ⟨id, a', hdenotes, hfind, hsame⟩
    obtain ⟨-, rfl⟩ := h.findId?_eq_some_iff.1 hfind
    exact hsame ▸ hdenotes
  · intro hdenotes
    exact ⟨_, a, hdenotes, h.findId?_eq_some_iff.2 ⟨ha, rfl⟩, rfl⟩

end Accounts.Store

namespace Api

open Http Pipeline
open Accounts (Registration Store User)

/-! ### Asking for an identifier -/

/-- The target that asks for an identifier, which is encoded in the segment. -/
def userTarget (segment : String) : String := "/v1/users/" ++ segment

/-- What denotes an identifier is not taken for the name of the token. -/
theorem proper_user_of_denotes {segment text : String} {id : Uuid} (h : IsSegment segment)
    (hdecode : decodeValue segment.toList = some text) (hdenotes : Uuid.Denotes text id) :
    (Resource.user segment.toList).Proper := by
  refine ⟨fun hnil => h.ne_empty (String.toList_eq_nil_iff.1 hnil), h.notMem '/' (by decide), ?_⟩
  intro htoken
  have hnone : Uuid.parse? "token" = none := by decide +kernel
  have hname : decodeValue "token".toList = some "token" := by decide +kernel
  rw [htoken, hname] at hdecode
  obtain rfl := Option.some.inj hdecode
  cases hnone.symm.trans (Uuid.parse?_eq_some_iff.2 hdenotes)

theorem path_getting_userTarget {segment : String} (h : IsSegment segment) (r : Incoming) :
    (getting r (userTarget segment)).path.toList = (Resource.user segment.toList).path :=
  toList_path_getting h (by decide +kernel) (by decide +kernel) r

/-- Whoever asks for an identifier is shown what the store knows of it, or is refused, as the claims
decide. -/
theorem outcome_user_of_bears {σ : Type} (s : Settings σ) (site : Site (World σ))
    (clock now : Instant) (r : Incoming) {id : List Char} {text : String} {c : Auth.Claims}
    (hbears : Auth.Bears s.engine site.world.keys clock r.headers c)
    (hdecode : decodeValue id = some text) :
    (outcome s site clock now r (.user id)).1 =
      if Auth.isSelfOrRole c text Auth.admin then
        match s.backend.byId site.world.accounts text with
        | .ok user => .ok (shown user.json .ok)
        | .error err => .error (.error err.toPipeline)
      else .error (.error adminRequired) := by
  let q : Request := { arriving site clock now r (.user id) with claims := some c }
  have hcontext : q.context = some (contextOf (opened site clock) now) := rfl
  have hreads : Reads q "id" text := (reads_iff_of_params rfl).2 hdecode
  obtain ⟨event, hnext⟩ := exec_authenticate_of_bears s.engine World.keys (queryById s)
    (arriving site clock now r (.user id)) (opening site clock now r (.user id)) hbears
  refine (congrArg Prod.fst hnext).trans ?_
  cases hself : Auth.isSelfOrRole c text Auth.admin with
  | false => exact congrArg Prod.fst (exec_queryById_of_not_self hcontext s _ rfl hreads hself)
  | true =>
    refine (congrArg Prod.fst (exec_queryById_of_self hcontext s _ rfl hreads hself)).trans ?_
    rw [Exchange.world_logging, world_opening]
    cases s.backend.byId site.world.accounts text <;> rfl

/-! ### Tokens that were handed out -/

/-- A token that the service has handed out to an account, at whatever site and time: to a request
with credentials of the account. -/
def HandedOut (a : App (World Store)) (scheme : Accounts.PasswordScheme) (u : User)
    (token : String) : Prop :=
  ∃ (ms : List Registration) (site : Site (World Store)) (clock : Instant) (r : Incoming)
    (email password : String), Reached a scheme ms site ∧
    r.method = "GET" ∧ r.path = "/v1/users/token" ∧
    Auth.basicCredentials r.headers = .ok (email, password) ∧
    site.world.accounts.authenticate scheme email password = .ok u ∧
    (site.run clock (a.serve r)).1 = .ok (shown (.record [("token", .text token)]) .ok)

/-- A token is told by what is shown of it. -/
theorem token_eq_of_shown_eq {token token' : String}
    (h : shown (.record [("token", .text token)]) .ok =
      shown (.record [("token", .text token')]) .ok) : token = token' := by
  have hread (t : String) : (Json.Node.parse? (Octets.ofText
      (Json.record [("token", .text t)]).render)).bind Json.Node.textMembers? =
      some [("token", t)] := by
    rw [Json.parse?_render, Option.bind_some]
    exact Json.textMembers?_node [("token", t)]
  have hmembers := hread token
  rw [render_eq_of_shown_eq h, hread token'] at hmembers
  exact (Prod.mk.inj (List.cons.inj (Option.some.inj hmembers)).1).2.symm

section Settings

variable {scheme : Accounts.PasswordScheme} {s : Settings Store}
  (hbackend : s.backend = .memory scheme)

include hbackend

/-- A token that was handed out is one that the engine has written for claims that name the account
by the written form of its identifier, and have its role. -/
theorem HandedOut.written {u : User} {token : String}
    (h : HandedOut (application s) scheme u token) :
    ∃ (keys : Auth.KeyStore) (salt : Octets) (c : Auth.Claims),
      s.engine.generate keys salt c = .ok token ∧ c.Representable ∧ c.subject = u.id.text ∧
      c.roles = .ofList [u.role] := by
  obtain ⟨ms, site, clock, r, email, password, -, hmethod, hpath, hcredentials, huser, hresult⟩ := h
  have hproper : Resource.token.Proper := trivial
  have hnamed : r.path.toList = Resource.token.path := congrArg String.toList hpath
  -- An answer is only given while the clock can be read.
  cases hclock : Clock.read clock with
  | error message =>
    have hfault := (run_of_fault s site clock hproper hnamed (.inl hmethod) hclock).1
    cases hresult.symm.trans hfault
  | ok now =>
    have hanswer := Except.ok.inj
      (hresult.symm.trans (run_of_get s site clock hproper hnamed rfl hmethod hclock))
    obtain hdeclines | ⟨_, user, c, token', hcredentials', huser', hissue, hgenerate, -, hshown⟩ :=
      exec_token (context_arriving site clock now r .token) s (opening site clock now r .token)
    · have hcode : 400 ≤ (answerOf (outcome s site clock now r .token).1).status.code :=
        hdeclines.code_answerOf
      rw [← hanswer] at hcode
      exact absurd hcode (of_decide_eq_true rfl)
    · obtain rfl := Except.ok.inj (hcredentials.symm.trans hcredentials')
      rw [hbackend] at huser'
      obtain rfl := Except.ok.inj (huser.symm.trans huser')
      obtain rfl := token_eq_of_shown_eq (hanswer.trans (congrArg answerOf hshown))
      obtain ⟨hend, rfl⟩ := Auth.Claims.issue_eq_ok_iff.1 hissue
      have hnow : clock.isTimestamp = true := (Clock.read_eq_ok_iff.1 hclock).2.2
      exact ⟨_, _, _, hgenerate, ⟨(Instant.isTimestamp_floorSecond clock).trans hnow, hend⟩, rfl,
        rfl⟩

/-- Whatever claims an engine finds in a token that was handed out, they name the account by the
written form of its identifier and have no other role than the account. -/
theorem HandedOut.isSelfOrRole_iff {u : User} {token : String}
    (h : HandedOut (application s) scheme u token) {e : Auth.Engine} {keys : Auth.KeyStore}
    {now : Instant} {c : Auth.Claims} (hvalidate : e.validate keys now token = .ok c)
    (text : String) :
    Auth.isSelfOrRole c text Auth.admin = true ↔ text = u.id.text ∨ u.role = Auth.admin := by
  obtain ⟨keys', salt, c', hgenerate, hrepresentable, hsubject, hroles⟩ := h.written hbackend
  obtain rfl := Auth.Engine.eq_of_validate_generate hrepresentable hgenerate hvalidate
  simp only [Auth.isSelfOrRole, Auth.authorized, Auth.Claims.hasRole, hsubject, hroles,
    Auth.RoleSet.contains_ofList, Bool.or_eq_true, beq_iff_eq,
    List.mem_singleton]
  exact or_congr eq_comm eq_comm

end Settings

/-! ### What owners are told -/

/-- What whoever bears a token of an account is told about that account, by the result of the
request for a target: the store finds the account under more texts than its owner is shown it. -/
structure OwnAccount (accounts : Store) (u : User) (result : String → Except Failure Response) :
    Prop where
  /-- The store finds the account under every text that denotes its identifier, and under no
  other. -/
  found : ∀ text : String, accounts.byId text = .ok u ↔ Uuid.Denotes text u.id
  /-- An owner is shown the account under the written form of its identifier, however that is
  encoded; an administrator under every text that denotes the identifier. -/
  shown : ∀ segment text : String, IsSegment segment → decodeValue segment.toList = some text →
    Uuid.Denotes text u.id → text = u.id.text ∨ u.role = Auth.admin →
    result (userTarget segment) = .ok (shown u.json .ok)
  /-- An owner who is no administrator is refused under every other text that denotes the
  identifier. -/
  refused : ∀ segment text : String, IsSegment segment → decodeValue segment.toList = some text →
    Uuid.Denotes text u.id → text ≠ u.id.text → u.role ≠ Auth.admin →
    result (userTarget segment) =
      .ok (RequestError.forbidden "attempted action is not allowed: requires role ADMIN").response

section Owner

variable {scheme : Accounts.PasswordScheme} {s : Settings Store} {site : Site (World Store)}
  {clock : Instant} {r : Incoming} {token : String} {account : Accounts.Account}
  (hbackend : s.backend = .memory scheme) (horderly : site.world.accounts.Orderly)
  (haccount : account ∈ site.world.accounts.accounts)
  (hhanded : HandedOut (application s) scheme account.user token)
  (hepoch : 0 ≤ clock.nanos) (hrange : clock.isTimestamp = true)
  (hbearer : Auth.bearerToken r.headers = .ok token)
  (hlive : ∃ c, s.engine.validate site.world.keys clock token = .ok c)

include hbackend horderly haccount hhanded hepoch hrange hbearer hlive

/-- What whoever bears a token of an account is answered under a text that denotes its
identifier. -/
theorem run_userTarget {segment text : String} (hsegment : IsSegment segment)
    (hdecode : decodeValue segment.toList = some text)
    (hdenotes : Uuid.Denotes text account.user.id) :
    (site.run clock ((application s).serve (getting r (userTarget segment)))).1 =
      .ok (if text = account.user.id.text ∨ account.user.role = Auth.admin then
          Api.shown account.user.json .ok
        else (RequestError.forbidden
          "attempted action is not allowed: requires role ADMIN").response) := by
  obtain ⟨c, hvalidate⟩ := hlive
  have hstore : s.backend.byId site.world.accounts text = .ok account.user := by
    rw [hbackend]
    exact (horderly.byId_eq_ok_iff haccount).2 hdenotes
  have hbears : Auth.Bears s.engine site.world.keys clock r.headers c := ⟨token, hbearer, hvalidate⟩
  rw [run_of_get s site clock (proper_user_of_denotes hsegment hdecode hdenotes)
    (path_getting_userTarget hsegment r) rfl rfl (Clock.read_eq_ok_iff.2 ⟨rfl, hepoch, hrange⟩),
    outcome_user_of_bears s site clock clock (getting r _) hbears hdecode, hstore,
    if_congr (hhanded.isSelfOrRole_iff hbackend hvalidate text) rfl rfl]
  split <;> rfl

/-- Whoever bears a token of an account is shown it under the right text. -/
theorem ownAccount_of_orderly : OwnAccount site.world.accounts account.user fun target =>
    (site.run clock ((application s).serve (getting r target))).1 where
  found _ := horderly.byId_eq_ok_iff haccount
  shown segment text hsegment hdecode hdenotes hself := by
    rw [run_userTarget hbackend horderly haccount hhanded hepoch hrange hbearer hlive hsegment
      hdecode hdenotes, if_pos hself]
  refused segment text hsegment hdecode hdenotes hother hrole := by
    rw [run_userTarget hbackend horderly haccount hhanded hepoch hrange hbearer hlive hsegment
      hdecode hdenotes, if_neg (not_or.2 ⟨hother, hrole⟩)]

end Owner

/-- At every site that the service can come to, while the clock can be read, whoever bears a live
token that was handed out to an account is shown the account under the written form of its
identifier, and an administrator under every form; an owner is refused under every other form. -/
theorem ownAccount_serve (engine : Auth.Engine) (scheme : Accounts.PasswordScheme)
    (issuer : String) (tokenTtl : Span) :
    ∃ a, app ⟨engine, .memory scheme, issuer, tokenTtl⟩ = .ok a ∧
      ∀ (ms : List Registration) (site : Site (World Store)), Reached a scheme ms site →
        ∀ account ∈ site.world.accounts.accounts, ∀ token,
          HandedOut a scheme account.user token →
          ∀ (clock : Instant) (r : Incoming), 0 ≤ clock.nanos → clock.isTimestamp = true →
            Auth.bearerToken r.headers = .ok token →
            (∃ c, engine.validate site.world.keys clock token = .ok c) →
            OwnAccount site.world.accounts account.user fun target =>
              (site.run clock (a.serve (getting r target))).1 := by
  refine ⟨_, app_eq_ok _, fun ms site hreached account haccount token hhanded clock r hepoch hrange
    hbearer hlive => ?_⟩
  let s : Settings Store := ⟨engine, .memory scheme, issuer, tokenTtl⟩
  have hbackend : s.backend = .memory scheme := rfl
  exact ownAccount_of_orderly (s := s) hbackend (hreached.records hbackend).orderly haccount hhanded
    hepoch hrange hbearer hlive

/-! ### An owner who is refused -/

/-- Somebody bears a token that was handed out to the one account of a site, who is no
administrator. -/
theorem exists_handedOut_adaSite :
    ∃ account ∈ adaSite.world.accounts.accounts, account.user.role ≠ Auth.admin ∧
      account.user.id = ⟨0x40008000000000000000⟩ ∧ ∃ (token : String) (r : Incoming),
        HandedOut (application ⟨.sample (some "accounts"), .memory .plain, "accounts",
          .ofSeconds 3600⟩) .plain account.user token ∧
        Auth.bearerToken r.headers = .ok token ∧
        ∃ c, (Auth.Engine.sample (some "accounts")).validate adaSite.world.keys
          (.ofSeconds 1700000000) token = .ok c := by
  let s : Settings Store :=
    ⟨.sample (some "accounts"), .memory .plain, "accounts", .ofSeconds 3600⟩
  let m := registrationAt emptySite (submissionOf "ada@example.org" "secret")
  have hbackend : s.backend = .memory .plain := rfl
  have hreached : Reached (application s) .plain [m] adaSite := reached_adaSite _
  have hrecords := hreached.records hbackend
  have hstands : Accounts.Stands [m] m := ⟨[], [], rfl, fun _ hm => (List.not_mem_nil hm).elim⟩
  have hemail : Text.eqIgnoringCase m.user.email "ADA@example.org" = true := by decide
  obtain ⟨account, haccount, hkeeps⟩ := hrecords.complete m hstands
  -- Ada asks for a token, and sends it with the next request.
  have hcredited : Credited [m] adaLogin.headers m :=
    ⟨_, _, basicCredentials_adaLogin, hstands, hemail, rfl⟩
  obtain ⟨token, hshown, hwritten⟩ := written_run hbackend Accounts.PasswordScheme.faithful_plain
    hrecords hcredited rfl (by decide) (canSign_sample _)
    (show 0 ≤ (Instant.ofSeconds 1700000000).nanos by decide) (by decide)
    (show adaLogin.method = "GET" from rfl) rfl
  have huser : adaSite.world.accounts.authenticate .plain "ADA@example.org" "secret" =
      .ok m.user :=
    (hrecords.authenticate_eq_ok_iff Accounts.PasswordScheme.faithful_plain).2
      ⟨m, hstands, rfl, hemail, rfl⟩
  have hpresents : Auth.PresentsToken
      [⟨"Authorization", Octets.ofText ("Bearer " ++ token)⟩] token :=
    Auth.firstHeader?_authorization _
  have haccepted := hwritten.accepted (representable_claimsOf _ _ (by decide) (by decide))
  refine ⟨account, haccount, hkeeps.user ▸ by decide, hkeeps.user ▸ by decide +kernel, token,
    ⟨"GET", "/", [⟨"Authorization", Octets.ofText ("Bearer " ++ token)⟩], [], none⟩, ?_,
    hwritten.bearerToken hpresents, _,
    haccepted _ _ _ rfl rfl (.inr rfl) (by decide) (by decide)⟩
  rw [hkeeps.user]
  exact ⟨_, _, _, _, _, _, hreached, rfl, rfl, basicCredentials_adaLogin, huser, hshown⟩

theorem ownAccount_serve_adaSite :
    ∃ a, app ⟨.sample (some "accounts"), .memory .plain, "accounts", .ofSeconds 3600⟩ = .ok a ∧
      ∃ m, Reached a .plain [m] adaSite ∧ ∃ account ∈ adaSite.world.accounts.accounts,
        ∃ (token : String) (r : Incoming), HandedOut a .plain account.user token ∧
          0 ≤ (Instant.ofSeconds 1700000000).nanos ∧
          (Instant.ofSeconds 1700000000).isTimestamp = true ∧
          Auth.bearerToken r.headers = .ok token ∧
          (∃ c, (Auth.Engine.sample (some "accounts")).validate adaSite.world.keys
            (.ofSeconds 1700000000) token = .ok c) ∧
          (adaSite.run (.ofSeconds 1700000000) (a.serve (getting r
              (userTarget "%300000000-0000-4000-8000-000000000000")))).1 =
            .ok (shown account.user.json .ok) ∧
          (adaSite.run (.ofSeconds 1700000000) (a.serve (getting r
              (userTarget "urn:uuid:00000000-0000-4000-8000-000000000000")))).1 =
            .ok (RequestError.forbidden
              "attempted action is not allowed: requires role ADMIN").response := by
  obtain ⟨a, ha, h⟩ := ownAccount_serve (.sample (some "accounts")) .plain "accounts"
    (.ofSeconds 3600)
  obtain rfl := Except.ok.inj (ha.symm.trans (app_eq_ok _))
  obtain ⟨account, haccount, hrole, hid, token, r, hhanded, hbearer, hlive⟩ :=
    exists_handedOut_adaSite
  have hreached := reached_adaSite (application
    ⟨.sample (some "accounts"), .memory .plain, "accounts", .ofSeconds 3600⟩)
  have hepoch : 0 ≤ (Instant.ofSeconds 1700000000).nanos := by decide
  have hrange : (Instant.ofSeconds 1700000000).isTimestamp = true := by decide
  have howner := h _ _ hreached account haccount token hhanded (.ofSeconds 1700000000) r hepoch
    hrange hbearer hlive
  have htext : "00000000-0000-4000-8000-000000000000" = account.user.id.text :=
    hid ▸ by decide +kernel
  refine ⟨_, ha, _, hreached, account, haccount, token, r, hhanded, hepoch, hrange, hbearer, hlive,
    howner.shown _ "00000000-0000-4000-8000-000000000000" (isSegment_iff.2 (by decide))
      (by decide +kernel) (Uuid.parse?_eq_some_iff.1 (hid ▸ by decide +kernel)) (.inl htext),
    howner.refused _ "urn:uuid:00000000-0000-4000-8000-000000000000" (isSegment_iff.2 (by decide))
      (by decide +kernel) (Uuid.parse?_eq_some_iff.1 (hid ▸ by decide +kernel))
      (htext ▸ by decide) hrole⟩

/-- An account that the store finds under the digits of its identifier is not shown to its owner
under them. -/
theorem not_shown_to_owner :
    ∃ a, app ⟨.sample (some "accounts"), .memory .plain, "accounts", .ofSeconds 3600⟩ = .ok a ∧
      ∃ m, Reached a .plain [m] adaSite ∧ ∃ account ∈ adaSite.world.accounts.accounts,
        ∃ (token : String) (r : Incoming), HandedOut a .plain account.user token ∧
          Auth.bearerToken r.headers = .ok token ∧
          (∃ c, (Auth.Engine.sample (some "accounts")).validate adaSite.world.keys
            (.ofSeconds 1700000000) token = .ok c) ∧
          IsSegment "00000000000040008000000000000000" ∧
          decodeValue "00000000000040008000000000000000".toList =
            some "00000000000040008000000000000000" ∧
          adaSite.world.accounts.byId "00000000000040008000000000000000" = .ok account.user ∧
          (adaSite.run (.ofSeconds 1700000000) (a.serve (getting r
              (userTarget "00000000000040008000000000000000")))).1 =
            .ok (RequestError.forbidden
              "attempted action is not allowed: requires role ADMIN").response := by
  let s : Settings Store :=
    ⟨.sample (some "accounts"), .memory .plain, "accounts", .ofSeconds 3600⟩
  have hbackend : s.backend = .memory .plain := rfl
  obtain ⟨account, haccount, hrole, hid, token, r, hhanded, hbearer, hlive⟩ :=
    exists_handedOut_adaSite
  have hreached := reached_adaSite (application s)
  have horderly := (hreached.records hbackend).orderly
  have hsegment : IsSegment "00000000000040008000000000000000" := isSegment_iff.2 (by decide)
  have hdecode : decodeValue "00000000000040008000000000000000".toList =
      some "00000000000040008000000000000000" := by decide +kernel
  have hdenotes : Uuid.Denotes "00000000000040008000000000000000" account.user.id :=
    Uuid.parse?_eq_some_iff.1 (hid ▸ by decide +kernel)
  have hother : "00000000000040008000000000000000" ≠ account.user.id.text :=
    hid ▸ by decide +kernel
  have howner := ownAccount_of_orderly hbackend horderly haccount hhanded
    (show 0 ≤ (Instant.ofSeconds 1700000000).nanos by decide) (by decide) hbearer hlive
  exact ⟨_, app_eq_ok _, _, hreached, account, haccount, token, r, hhanded, hbearer, hlive,
    hsegment, hdecode, (howner.found _).2 hdenotes,
    howner.refused _ _ hsegment hdecode hdenotes hother hrole⟩

end Api

end AccountService
