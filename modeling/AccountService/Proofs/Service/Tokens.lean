import AccountService.Proofs.Auth.Credentials
import AccountService.Proofs.Auth.RoundTrip
import AccountService.Proofs.Service.Registrations

/-!
# Tokens for credentials

A token is handed out exactly for the email and the password of a registration that stands. It
carries the claims of that account from now on, and is accepted until it ends by every engine that
knows the key and expects no other issuer.

## Main definitions

* `Api.claimsOf` — the claims that an account is given
* `Api.Credited` — a request has the credentials of a registration
* `Api.Accepted` — the engines and the times at which a token is accepted
* `Api.Written` — a token that an engine has written for claims
* `Api.TokenAnswer` — what a request for a token comes to

## Main statements

* `Api.written_of_credited`, `Api.refused_of_not_credited` — who is handed a token, and who is not
* `Api.token_serve` — every request for a token to a site that the service can come to
* `Api.not_token_serve` — a clock before 1970, and an identifier that is drawn twice
-/

namespace AccountService

namespace Instant

theorem floorSecond_add_ofSeconds (t : Instant) (s : Int) :
    t.floorSecond.add (.ofSeconds s) = .ofSeconds (t.seconds + s) := by
  rw [floorSecond, add, Span.ofSeconds, ofSeconds, ofSeconds, Int.add_mul]

theorem isTimestamp_floorSecond (t : Instant) : t.floorSecond.isTimestamp = t.isTimestamp := by
  rw [isTimestamp, isTimestamp, floorSecond, seconds_ofSeconds]

end Instant

namespace Auth

/-- The active key of an engine is there and signs whatever it is given. -/
def Engine.CanSign (e : Engine) (keys : KeyStore) : Prop :=
  ∃ key, keys.get? e.activeKid = some key ∧
    ∀ salt message, ∃ signature, Signature.sign e.scheme key salt message = .ok signature

theorem Engine.CanSign.exists_generate {e : Engine} {keys : KeyStore} (h : e.CanSign keys)
    (salt : Octets) {c : Claims} (hc : c.WellFormed) :
    ∃ token, e.generate keys salt c = .ok token := by
  obtain ⟨key, hkey, hsigns⟩ := h
  obtain ⟨signature, hsign⟩ := hsigns salt
    (Token.signingInput e.headerOf (Token.encodeJson (Token.payloadJson c)))
  exact ⟨_, generate_eq_ok_iff.2 ⟨hc, key, signature, hkey, hsign, rfl⟩⟩

end Auth

namespace Api

open Http Pipeline
open Accounts (Registration Records Stands Store)

/-! ### Claims -/

/-- The claims that an account is given at an instant for a number of seconds. -/
def claimsOf (u : Accounts.User) (issuer : String) (now : Instant) (ttl : Int) : Auth.Claims :=
  ⟨u.id.text, issuer, now.floorSecond, now.floorSecond.add (.ofSeconds ttl), .ofList [u.role]⟩

section Claims

variable (u : Accounts.User) (issuer : String) {now : Instant} {ttl : Int}

theorem wellFormed_claimsOf (now : Instant) (hpositive : 0 < ttl) :
    (claimsOf u issuer now ttl).WellFormed where
  subject := u.id.isBlankText_text
  issuedAt := Instant.subsecond_ofSeconds _
  expiresAt := by
    rw [claimsOf, Instant.floorSecond_add_ofSeconds]
    exact Instant.subsecond_ofSeconds _
  ordered := by
    rw [claimsOf, Instant.floorSecond_add_ofSeconds]
    simp only [Instant.floorSecond, Instant.ofSeconds, Instant.second]
    omega

theorem representable_claimsOf (hnow : now.isTimestamp = true)
    (hend : (now.floorSecond.add (.ofSeconds ttl)).isTimestamp = true) :
    (claimsOf u issuer now ttl).Representable :=
  ⟨(Instant.isTimestamp_floorSecond now).trans hnow, hend⟩

/-- An instant from 1970 on is one that a timestamp can hold if a later one is. -/
theorem isTimestamp_of_end (hpositive : 0 < ttl) (hepoch : 0 ≤ now.nanos)
    (hend : (now.floorSecond.add (.ofSeconds ttl)).isTimestamp = true) :
    now.isTimestamp = true := by
  rw [Instant.floorSecond_add_ofSeconds, Instant.isTimestamp, Instant.seconds_ofSeconds,
    Bool.and_eq_true, decide_eq_true_eq, decide_eq_true_eq] at hend
  rw [Instant.isTimestamp, Bool.and_eq_true, decide_eq_true_eq, decide_eq_true_eq]
  have hseconds : 0 ≤ now.seconds := Int.ediv_nonneg hepoch (by decide)
  have hfirst : Instant.firstSecond ≤ 0 := by decide
  omega

theorem issue_eq_ok (hend : (now.floorSecond.add (.ofSeconds ttl)).isTimestamp = true) :
    Auth.Claims.issue now u.id.text issuer [u.role] (.ofSeconds ttl) =
      .ok (claimsOf u issuer now ttl) := by
  rw [Auth.Claims.issue, if_pos hend]
  rfl

end Claims

/-- A token is accepted to claims, at every engine of the same algorithm that finds the same key
under the name of the active one and expects the issuer of the claims or none, from when the
clock has passed the leeway until the claims have ended and the leeway is over. -/
def Accepted (engine : Auth.Engine) (keys : Auth.KeyStore) (token : String) (c : Auth.Claims) :
    Prop :=
  ∀ (engine' : Auth.Engine) (keys' : Auth.KeyStore) (now : Instant),
    engine'.algorithm = engine.algorithm →
    keys'.get? engine.activeKid = keys.get? engine.activeKid →
    engine'.issuer = none ∨ engine'.issuer = some c.issuer →
    (engine'.leeway : Int) ≤ now.seconds → now.seconds ≤ c.expiresAt.seconds + engine'.leeway →
    engine'.validate keys' now token = .ok c

/-- A token that an engine has written for claims. -/
def Written (engine : Auth.Engine) (keys : Auth.KeyStore) (token : String) (c : Auth.Claims) :
    Prop :=
  ∃ salt, salt.length = engine.scheme.digest.size ∧ engine.generate keys salt c = .ok token

theorem Written.accepted {engine : Auth.Engine} {keys : Auth.KeyStore} {c : Auth.Claims}
    {token : String} (h : Written engine keys token c) (hc : c.Representable) :
    Accepted engine keys token c := by
  intro engine' keys' now halgorithm hkey hissuer hleeway hlive
  obtain ⟨salt, hsalt, hgenerate⟩ := h
  have haccept := Auth.Engine.accept_generate hc (fun _ => hsalt) hgenerate halgorithm hkey hleeway
    hlive
  have hpasses : engine'.checkIssuer (Auth.Engine.payloadOf c) = .ok () := by
    rcases hissuer with hissuer | hissuer
    · rw [Auth.Engine.checkIssuer, hissuer]
    · rw [Auth.Engine.checkIssuer, hissuer]
      exact if_pos rfl
  rw [hpasses] at haccept
  rw [Auth.Engine.validate, haccept]
  rfl

/-- A token that an engine has written is read from a header in which a client writes it. -/
theorem Written.bearerToken {engine : Auth.Engine} {keys : Auth.KeyStore} {token : String}
    {c : Auth.Claims} {headers : List Header} (h : Written engine keys token c)
    (hpresents : Auth.PresentsToken headers token) : Auth.bearerToken headers = .ok token := by
  obtain ⟨salt, -, hgenerate⟩ := h
  obtain ⟨-, key, signature, -, -, rfl⟩ := Auth.Engine.generate_eq_ok_iff.1 hgenerate
  refine Auth.bearerToken_of_presents hpresents ?_ fun c hc => Auth.isGraph_of_mem_join hc
  intro hempty
  have hchars := congrArg String.toList hempty
  simp [Token.join] at hchars

/-! ### The handler -/

section Handler

variable {σ : Type} {s : Settings σ} {r : Request} {c : Context} {x : Exchange (World σ)}
  (hcontext : r.context = some c)

include hcontext

theorem exec_token_of_credentials_eq_error {err : Auth.Error}
    (h : Auth.basicCredentials r.incoming.headers = .error err) :
    exec (Api.token s r) x = (.error (.error (.ofAuth err)), x) := by
  simp only [Api.token, exec_bind, exec_getContext x hcontext, h, exec_fail]

variable {email password : String}
  (hcredentials : Auth.basicCredentials r.incoming.headers = .ok (email, password))

include hcredentials

theorem exec_token_of_authenticate_eq_error {err : Accounts.Error}
    (h : s.backend.authenticate x.world.accounts email password = .error err) :
    exec (Api.token s r) x = (.error (.error err.toPipeline), x) := by
  simp only [Api.token, exec_bind, exec_getContext x hcontext, hcredentials, exec_get, exec_orFail,
    h]

theorem exec_token_of_generate_eq_ok {user : Accounts.User} {claims : Auth.Claims} {token : String}
    (huser : s.backend.authenticate x.world.accounts email password = .ok user)
    (hclaims : Auth.Claims.issue x.clock user.id.text s.issuer [user.role] s.tokenTtl = .ok claims)
    (htoken : s.engine.generate x.world.keys (x.entropy.take s.engine.scheme.digest.size).1 claims =
      .ok token) :
    (exec (Api.token s r) x).1 = .ok (shown (.record [("token", .text token)]) .ok) := by
  simp only [Api.token, exec_bind, exec_getContext x hcontext, hcredentials, exec_get, exec_orFail,
    huser, hclaims, exec_set, htoken]
  rw [exec_respond (by decide)]

end Handler

/-! ### Who is handed a token -/

/-- A request has the credentials of a registration that stands: its email, in whatever case, and
the password that was submitted. -/
def Credited (ms : List Registration) (headers : List Header) (m : Registration) : Prop :=
  ∃ email password, Auth.basicCredentials headers = .ok (email, password) ∧ Stands ms m ∧
    Text.eqIgnoringCase m.user.email email = true ∧ m.submission.password = password

/-- What the others are told. -/
def refusals : List String :=
  ["authorization header missing", "authorization header malformed", "authentication failed"]

/-- What a request for a token comes to: a token for whoever is credited, and a refusal for all
others. -/
structure TokenAnswer (engine : Auth.Engine) (issuer : String) (ttl : Int) (ms : List Registration)
    (site : Site (World Store)) (clock : Instant) (headers : List Header)
    (result : Except Failure Response) (world' : World Store) : Prop where
  /-- The status tells who is credited. -/
  status : ∃ a, result = .ok a ∧ (a.status = .ok ↔ ∃ m, Credited ms headers m)
  /-- The token that is handed out is accepted to the claims of the account. -/
  granted : ∀ m, Credited ms headers m →
    ∃ token, result = .ok (shown (.record [("token", .text token)]) .ok) ∧
      Accepted engine site.world.keys token (claimsOf m.user issuer clock ttl)
  /-- A refusal has the status 401 and tells no more than one of three texts. -/
  refused : (∀ m, ¬ Credited ms headers m) →
    ∃ message ∈ refusals, result = .ok (RequestError.unauthorized message).response
  /-- Nothing changes. -/
  unchanged : world' = site.world

section Serve

variable {scheme : Accounts.PasswordScheme} {s : Settings Store} {ms : List Registration}
  {site : Site (World Store)} {clock : Instant} {r : Incoming} {ttl : Int}
  (hbackend : s.backend = .memory scheme) (hfaithful : scheme.Faithful)
  (hrecords : Records scheme ms site.world.accounts)

include hbackend hfaithful hrecords

/-- Whoever is credited is handed a token that the engine has written. -/
theorem written_of_credited (now : Instant) {m : Registration} (hm : Credited ms r.headers m)
    (httl : s.tokenTtl = .ofSeconds ttl) (hpositive : 0 < ttl)
    (hsigns : s.engine.CanSign site.world.keys)
    (hend : (clock.floorSecond.add (.ofSeconds ttl)).isTimestamp = true) :
    ∃ token, (outcome s site clock now r .token).1 =
        .ok (shown (.record [("token", .text token)]) .ok) ∧
      Written s.engine site.world.keys token (claimsOf m.user s.issuer clock ttl) := by
  obtain ⟨email, password, hcredentials, hstands, hemail, hpassword⟩ := hm
  have huser : s.backend.authenticate site.world.accounts email password = .ok m.user := by
    rw [hbackend]
    exact (hrecords.authenticate_eq_ok_iff hfaithful).2 ⟨m, hstands, rfl, hemail, hpassword⟩
  have hclaims := issue_eq_ok m.user s.issuer hend
  rw [← httl] at hclaims
  obtain ⟨token, htoken⟩ := hsigns.exists_generate
    ((opening site clock now r .token).entropy.take s.engine.scheme.digest.size).1
    (wellFormed_claimsOf m.user s.issuer clock hpositive)
  refine ⟨token, ?_, _, ?_, htoken⟩
  · exact exec_token_of_generate_eq_ok (context_arriving site clock now r .token) hcredentials huser
      hclaims htoken
  · simp [Entropy.take]

/-- Whoever is not credited is refused. -/
theorem refused_of_not_credited (clock now : Instant) (hnone : ∀ m, ¬ Credited ms r.headers m) :
    ∃ message ∈ refusals, (outcome s site clock now r .token).1 =
      .error (.error (.request (.unauthorized message))) := by
  have hcontext := context_arriving site clock now r .token
  cases hcredentials : Auth.basicCredentials r.headers with
  | error err =>
    have hrefused := exec_token_of_credentials_eq_error (s := s)
      (x := opening site clock now r .token) hcontext hcredentials
    rcases Auth.eq_of_basicCredentials_eq_error hcredentials with rfl | rfl
    · exact ⟨_, .head _, congrArg Prod.fst hrefused⟩
    · exact ⟨_, .tail _ (.head _), congrArg Prod.fst hrefused⟩
  | ok credentials =>
    obtain ⟨email, password⟩ := credentials
    cases huser : s.backend.authenticate site.world.accounts email password with
    | error err =>
      have hrefused := exec_token_of_authenticate_eq_error (s := s)
        (x := opening site clock now r .token) hcontext hcredentials huser
      obtain rfl : err = .invalidCredentials := by
        rw [hbackend] at huser
        exact Store.eq_of_authenticate_eq_error huser
      exact ⟨_, .tail _ (.tail _ (.head _)), congrArg Prod.fst hrefused⟩
    | ok user =>
      rw [hbackend] at huser
      obtain ⟨m, hstands, rfl, hemail, hpassword⟩ :=
        (hrecords.authenticate_eq_ok_iff hfaithful).1 huser
      exact absurd ⟨email, password, hcredentials, hstands, hemail, hpassword⟩ (hnone m)

/-- Whoever is credited while the clock can be read is sent a token that the engine has written. -/
theorem written_run {m : Registration} (hm : Credited ms r.headers m)
    (httl : s.tokenTtl = .ofSeconds ttl) (hpositive : 0 < ttl)
    (hsigns : s.engine.CanSign site.world.keys) (hepoch : 0 ≤ clock.nanos)
    (hend : (clock.floorSecond.add (.ofSeconds ttl)).isTimestamp = true)
    (hmethod : r.method = "GET") (hpath : r.path = "/v1/users/token") :
    ∃ token, (site.run clock ((application s).serve r)).1 =
        .ok (shown (.record [("token", .text token)]) .ok) ∧
      Written s.engine site.world.keys token (claimsOf m.user s.issuer clock ttl) := by
  have hnow := isTimestamp_of_end hpositive hepoch hend
  have hproper : Resource.token.Proper := trivial
  have hnamed : r.path.toList = Resource.token.path := congrArg String.toList hpath
  obtain ⟨token, hshown, hwritten⟩ := written_of_credited hbackend hfaithful hrecords clock hm httl
    hpositive hsigns hend
  refine ⟨token, ?_, hwritten⟩
  rw [run_of_get s site clock hproper hnamed rfl hmethod
    (Clock.read_eq_ok_iff.2 ⟨rfl, hepoch, hnow⟩), hshown]
  rfl

/-- What a request for a token comes to while the clock can be read. -/
theorem tokenAnswer_run (httl : s.tokenTtl = .ofSeconds ttl) (hpositive : 0 < ttl)
    (hsigns : s.engine.CanSign site.world.keys) (hepoch : 0 ≤ clock.nanos)
    (hend : (clock.floorSecond.add (.ofSeconds ttl)).isTimestamp = true)
    (hmethod : r.method = "GET") (hpath : r.path = "/v1/users/token") :
    TokenAnswer s.engine s.issuer ttl ms site clock r.headers
      (site.run clock ((application s).serve r)).1
      (site.run clock ((application s).serve r)).2.1.world := by
  have hnow := isTimestamp_of_end hpositive hepoch hend
  have hproper : Resource.token.Proper := trivial
  have hnamed : r.path.toList = Resource.token.path := congrArg String.toList hpath
  have hresult := run_of_get s site clock hproper hnamed rfl hmethod
    (Clock.read_eq_ok_iff.2 ⟨rfl, hepoch, hnow⟩)
  have hgranted : ∀ m, Credited ms r.headers m →
      ∃ token, (site.run clock ((application s).serve r)).1 =
          .ok (shown (.record [("token", .text token)]) .ok) ∧
        Accepted s.engine site.world.keys token (claimsOf m.user s.issuer clock ttl) := by
    intro m hm
    obtain ⟨token, hshown, hwritten⟩ := written_run hbackend hfaithful hrecords hm httl hpositive
      hsigns hepoch hend hmethod hpath
    exact ⟨token, hshown, hwritten.accepted (representable_claimsOf _ _ hnow hend)⟩
  have hrefused : (∀ m, ¬ Credited ms r.headers m) → ∃ message ∈ refusals,
      (site.run clock ((application s).serve r)).1 =
        .ok (RequestError.unauthorized message).response := by
    intro hnone
    obtain ⟨message, hmessage, houtcome⟩ := refused_of_not_credited hbackend hfaithful
      hrecords clock clock hnone
    exact ⟨message, hmessage, by rw [hresult, houtcome]; rfl⟩
  refine ⟨?_, hgranted, hrefused, ?_⟩
  · by_cases hcredited : ∃ m, Credited ms r.headers m
    · obtain ⟨m, hm⟩ := hcredited
      obtain ⟨token, hshown, -⟩ := hgranted m hm
      exact ⟨_, hshown, iff_of_true rfl ⟨m, hm⟩⟩
    · obtain ⟨message, -, hshown⟩ := hrefused (not_exists.1 hcredited)
      exact ⟨_, hshown, iff_of_false (show Status.unauthorized ≠ Status.ok by decide) hcredited⟩
  -- Only a request for the accounts changes anything.
  · obtain ⟨c, account, hcreates⟩ | ⟨hsame, -⟩ := creates_or_world_eq hbackend site clock r
    · have hother := hcreates.path
      rw [hpath] at hother
      exact absurd hother (by decide)
    · exact hsame

end Serve

/-- At every site that the service can come to, from 1970 on and as long as the end of a token can
be held in a timestamp, a request for a token is answered with one exactly if it has the email and
the password of a registration that stands; and that token is accepted to the claims of that
account. -/
theorem token_serve (engine : Auth.Engine) (scheme : Accounts.PasswordScheme) (issuer : String)
    {ttl : Int} (hfaithful : scheme.Faithful) (hpositive : 0 < ttl) :
    ∃ a, app ⟨engine, .memory scheme, issuer, .ofSeconds ttl⟩ = .ok a ∧
      ∀ (ms : List Registration) (site : Site (World Store)), Reached a scheme ms site →
        engine.CanSign site.world.keys → ∀ (clock : Instant) (r : Incoming), 0 ≤ clock.nanos →
          (clock.floorSecond.add (.ofSeconds ttl)).isTimestamp = true →
          r.method = "GET" → r.path = "/v1/users/token" →
          TokenAnswer engine issuer ttl ms site clock r.headers (site.run clock (a.serve r)).1
            (site.run clock (a.serve r)).2.1.world := by
  refine ⟨_, app_eq_ok _, fun ms site hreached hsigns clock r hepoch hend hmethod hpath => ?_⟩
  let s : Settings Store := ⟨engine, .memory scheme, issuer, .ofSeconds ttl⟩
  have hbackend : s.backend = .memory scheme := rfl
  exact tokenAnswer_run hbackend hfaithful (hreached.records hbackend) rfl hpositive hsigns hepoch
    hend hmethod hpath

/-! ### Sites with accounts -/

/-- The site after a submission without a request. -/
def submitted (site : Site (World Store)) (n : Accounts.NewUser) : Site (World Store) :=
  let created := site.world.accounts.create .plain n site.entropy
  { site with entropy := created.2.2, world := { site.world with accounts := created.2.1 } }

/-- The registration of a submission to a site. -/
def registrationAt (site : Site (World Store)) (n : Accounts.NewUser) : Registration :=
  ⟨n, n.toUser (Uuid.draw (site.entropy.take Accounts.saltSize).2).1⟩

theorem Reached.submitted {a : App (World Store)} {ms : List Registration}
    {site : Site (World Store)} (h : Reached a .plain ms site) {n : Accounts.NewUser}
    (hvalid : n.validate = .ok ())
    (hfree : site.world.accounts.findEmail? (Text.trim n.email) = none) :
    Reached a .plain (ms ++ [registrationAt site n]) (submitted site n) := by
  have hhash : Accounts.PasswordScheme.plain.hash (site.entropy.take Accounts.saltSize).1
      n.password = .ok ⟨_, Octets.ofText n.password⟩ := rfl
  have hcreate := Store.create_eq_ok_iff.2 ⟨hvalid, _, hhash, rfl, hfree, rfl, rfl⟩
  have hreached := h.registered hcreate
  rw [Api.submitted, hcreate]
  exact hreached

/-- A submission for an account. -/
def submissionOf (email password : String) : Accounts.NewUser :=
  ⟨"Ada", email, "USER", password, password⟩

/-- A site without accounts, with a source that draws the same identifier over and over. -/
def emptySite : Site (World Store) :=
  ⟨.zero, false, ⟨fun _ => 0, 0⟩, ⟨Auth.Engine.sampleKeys, .empty⟩⟩

/-- The site with one account. -/
def adaSite : Site (World Store) := submitted emptySite (submissionOf "ada@example.org" "secret")

/-- A request for a token with the credentials of this account. -/
def adaLogin : Incoming :=
  ⟨"GET", "/v1/users/token",
    [⟨"Authorization", Octets.ofText "Basic QURBQGV4YW1wbGUub3JnOnNlY3JldA=="⟩], [], none⟩

theorem basicCredentials_adaLogin :
    Auth.basicCredentials adaLogin.headers = .ok ("ADA@example.org", "secret") := by
  decide +kernel

theorem canSign_sample (issuer : Option String) :
    (Auth.Engine.sample issuer).CanSign Auth.Engine.sampleKeys :=
  ⟨Rsa.sampleKey, Auth.Engine.get?_sampleKeys, fun salt message =>
    Signature.exists_sign _ salt message Rsa.genuine_sampleKey Rsa.canSign_sampleKey⟩

theorem reached_submitted (a : App (World Store)) {n : Accounts.NewUser}
    (hvalid : n.validate = .ok ()) :
    Reached a .plain [registrationAt emptySite n] (submitted emptySite n) :=
  (Reached.start .zero false ⟨fun _ => 0, 0⟩ Auth.Engine.sampleKeys).submitted hvalid rfl

theorem reached_adaSite (a : App (World Store)) :
    Reached a .plain [registrationAt emptySite (submissionOf "ada@example.org" "secret")] adaSite :=
  reached_submitted a (by decide)

theorem token_serve_adaSite :
    Accounts.PasswordScheme.plain.Faithful ∧ (0 : Int) < 3600 ∧
      ∃ a, app ⟨.sample (some "accounts"), .memory .plain, "accounts", .ofSeconds 3600⟩ = .ok a ∧
        ∃ m, m.user.email = "ada@example.org" ∧ Reached a .plain [m] adaSite ∧
          (Auth.Engine.sample (some "accounts")).CanSign adaSite.world.keys ∧
          0 ≤ (Instant.ofSeconds 1700000000).nanos ∧
          ((Instant.ofSeconds 1700000000).floorSecond.add (.ofSeconds 3600)).isTimestamp = true ∧
          adaLogin.method = "GET" ∧ adaLogin.path = "/v1/users/token" ∧
          ∃ token, (adaSite.run (.ofSeconds 1700000000) (a.serve adaLogin)).1 =
              .ok (shown (.record [("token", .text token)]) .ok) ∧
            (Auth.Engine.sample none).validate Auth.Engine.sampleKeys (.ofSeconds 1700003660)
                token = .ok (claimsOf m.user "accounts" (.ofSeconds 1700000000) 3600) := by
  have hpositive : (0 : Int) < 3600 := by decide
  obtain ⟨a, ha, h⟩ := token_serve (.sample (some "accounts")) .plain "accounts"
    Accounts.PasswordScheme.faithful_plain hpositive
  have hreached := reached_adaSite a
  have hsigns : (Auth.Engine.sample (some "accounts")).CanSign adaSite.world.keys :=
    canSign_sample _
  have hanswer := h _ _ hreached hsigns (.ofSeconds 1700000000) adaLogin (by decide) (by decide)
    rfl rfl
  have hcredited : Credited [registrationAt emptySite (submissionOf "ada@example.org" "secret")]
      adaLogin.headers (registrationAt emptySite (submissionOf "ada@example.org" "secret")) :=
    ⟨_, _, basicCredentials_adaLogin, ⟨[], [], rfl, fun _ hm => (List.not_mem_nil hm).elim⟩,
      (by decide), rfl⟩
  obtain ⟨token, hshown, haccepted⟩ := hanswer.granted _ hcredited
  refine ⟨Accounts.PasswordScheme.faithful_plain, hpositive, a, ha, _, ?_, hreached, hsigns,
    (by decide), (by decide), rfl, rfl, token, hshown, ?_⟩
  · rfl
  · exact haccepted (.sample none) Auth.Engine.sampleKeys _ rfl rfl (.inl rfl) (by decide)
      (by decide)

/-! ### Who is refused all the same -/

/-- The site with another account, under the identifier that was drawn for the first. -/
def eveSite : Site (World Store) := submitted adaSite (submissionOf "eve@example.org" "other")

/-- The registrations on the way there. -/
def eveRegistrations : List Registration :=
  [registrationAt emptySite (submissionOf "ada@example.org" "secret"),
    registrationAt adaSite (submissionOf "eve@example.org" "other")]

theorem reached_eveSite (a : App (World Store)) : Reached a .plain eveRegistrations eveSite :=
  (reached_adaSite a).submitted (by decide) (by decide +kernel)

/-- The registration that was replaced no longer stands, and the other one has another email. -/
theorem not_credited_eveRegistrations (m : Registration) :
    ¬ Credited eveRegistrations adaLogin.headers m := by
  rintro ⟨email, password, hcredentials, hstands, hemail, -⟩
  obtain ⟨rfl, rfl⟩ := Prod.mk.inj
    (Except.ok.inj (basicCredentials_adaLogin.symm.trans hcredentials))
  obtain rfl | ⟨hfirst, hother⟩ := Accounts.stands_append_singleton.1
    (show Stands ([registrationAt emptySite (submissionOf "ada@example.org" "secret")] ++
      [registrationAt adaSite (submissionOf "eve@example.org" "other")]) m from hstands)
  · exact absurd hemail (by decide)
  · obtain rfl := List.mem_singleton.1 hfirst.mem
    exact hother rfl

/-- Not every request for a token is answered so. Before 1970 the clock cannot be read and there is
no answer at all; and a registration whose identifier is drawn again is lost, with its
credentials. -/
theorem not_token_serve :
    ∃ a, app ⟨.sample (some "accounts"), .memory .plain, "accounts", .ofSeconds 3600⟩ = .ok a ∧
      (Reached a .plain [] emptySite ∧
        (Auth.Engine.sample (some "accounts")).CanSign emptySite.world.keys ∧
        ((Instant.ofSeconds (-1)).floorSecond.add (.ofSeconds 3600)).isTimestamp = true ∧
        (emptySite.run (.ofSeconds (-1)) (a.serve ⟨"GET", "/v1/users/token", [], [], none⟩)).1 =
          .error (.panic (.text "system time before Unix epoch: SystemTimeError(1s)"))) ∧
      Reached a .plain eveRegistrations eveSite ∧
        (Auth.Engine.sample (some "accounts")).CanSign eveSite.world.keys ∧
        ∃ m ∈ eveRegistrations,
          Auth.basicCredentials adaLogin.headers = .ok ("ADA@example.org", "secret") ∧
          Text.eqIgnoringCase m.user.email "ADA@example.org" = true ∧
          m.submission.password = "secret" ∧
          ∃ response, (eveSite.run (.ofSeconds 1700000000) (a.serve adaLogin)).1 = .ok response ∧
            response.status = .unauthorized := by
  have hpositive : (0 : Int) < 3600 := by decide
  have hproper : Resource.token.Proper := trivial
  have hfault : Clock.read (.ofSeconds (-1)) =
      .error "system time before Unix epoch: SystemTimeError(1s)" := by decide
  refine ⟨_, app_eq_ok _, ⟨.start _ _ _ _, canSign_sample _, by decide, ?_⟩, reached_eveSite _,
    canSign_sample _, _, List.mem_cons_self, basicCredentials_adaLogin, by decide, rfl, ?_⟩
  · exact (run_of_fault _ _ _ hproper rfl (.inl rfl) hfault).1
  · let s : Settings Store :=
      ⟨.sample (some "accounts"), .memory .plain, "accounts", .ofSeconds 3600⟩
    have hbackend : s.backend = .memory .plain := rfl
    have hanswer := tokenAnswer_run hbackend Accounts.PasswordScheme.faithful_plain
      ((reached_eveSite (application s)).records hbackend) rfl hpositive (canSign_sample _)
      (show 0 ≤ (Instant.ofSeconds 1700000000).nanos by decide) (by decide)
      (show adaLogin.method = "GET" from rfl) rfl
    obtain ⟨message, -, hrefused⟩ := hanswer.refused not_credited_eveRegistrations
    exact ⟨_, hrefused, rfl⟩

end Api

end AccountService
