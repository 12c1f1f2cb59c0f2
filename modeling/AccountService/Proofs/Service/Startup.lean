import AccountService.Proofs.Auth.Expiry
import AccountService.Proofs.Auth.Rotation
import AccountService.Proofs.Service.Acceptance
import AccountService.Proofs.Service.Logins
import AccountService.Service.Startup

/-!
# A service that its administrator can use

The issuer, the leeway and the name of the key go from the configuration to the engine, which checks
tokens, and the issuer and the time that tokens hold go to the handler, which has them written. The
email and the password go through a submission to the store. Nothing that is accepted on the way in
is refused further on: the service comes up, hands its administrator a token, and accepts it as long
as both copies together say.

## Main definitions

* `Startup.engineOf`, `Startup.settingsOf` — what a configuration makes
* `Startup.Provided` — a configuration with an administrator and with the keys that it names
* `Startup.Admits` — a service hands out a token that lasts as it should
* `Api.CheckAnswer` — what becomes of whoever bears a token at the check of the role

## Main statements

* `Startup.boot_eq_ok`, `Startup.start_eq` — a service that is provided for comes up
* `Startup.reached_upWith` — at first its administrator is registered and nobody else
* `Api.checkAnswer_run` — how long a token that was handed out lets its bearer through
* `Startup.usable_start` — the administrator can use the service
* `Startup.not_usable_start` — the limit is not kept to the fraction of a second
-/

namespace AccountService

namespace Api

open Http Pipeline
open Accounts (Store)

/-! ### The check of the role -/

section Check

variable {σ : Type} (s : Settings σ) (site : Site (World σ)) {clock : Instant} {r : Incoming}
  (hmethod : r.method = "GET") (hpath : r.path = "/v1/testauth")
  (hepoch : 0 ≤ clock.nanos) (hrange : clock.isTimestamp = true)

include hmethod hpath hepoch hrange

/-- What a request for the check of the role is sent. -/
theorem run_testauth :
    (site.run clock ((application s).serve r)).1 =
      .ok (answerOf (outcome s site clock clock r .testauth).1) := by
  have hproper : Resource.testauth.Proper := trivial
  have hnamed : r.path.toList = Resource.testauth.path := congrArg String.toList hpath
  exact run_of_get s site clock hproper hnamed rfl hmethod
    (Clock.read_eq_ok_iff.2 ⟨rfl, hepoch, hrange⟩)

/-- An administrator is let through. -/
theorem run_testauth_of_bears {c : Auth.Claims}
    (hbears : Auth.Bears s.engine site.world.keys clock r.headers c)
    (hadmin : c.hasRole Auth.admin = true) :
    (site.run clock ((application s).serve r)).1 =
      .ok (shown (.record [("status", .text "OK")]) .ok) := by
  obtain ⟨event, hnext⟩ := exec_admin_of_hasRole s.engine Api.test
    (arriving site clock clock r .testauth) (opening site clock clock r .testauth) hbears hadmin
  obtain ⟨-, hshown⟩ := exec_test
    (r := { arriving site clock clock r .testauth with claims := some c })
    (context_arriving site clock clock r .testauth)
    ((opening site clock clock r .testauth).logging event)
  rw [run_testauth s site hmethod hpath hepoch hrange]
  have houtcome : (outcome s site clock clock r .testauth).1 =
      .ok (shown (.record [("status", .text "OK")]) .ok) :=
    (congrArg Prod.fst hnext).trans hshown
  rw [houtcome]
  rfl

/-- Whoever presents no claims is told why. -/
theorem run_testauth_of_presented_eq_error {err : Auth.Error}
    (h : Auth.presented s.engine site.world.keys clock r.headers = .error err) :
    (site.run clock ((application s).serve r)).1 = .ok err.toRequest.response := by
  have hguarded : Resource.testauth.Guarded := trivial
  obtain ⟨y, hrefused, -⟩ := outcome_of_presented_eq_error s clock hguarded h
  rw [run_testauth s site hmethod hpath hepoch hrange, hrefused]
  rfl

end Check

/-! ### How long a token lasts -/

/-- What becomes of whoever bears a token at the check of the role: until the limit the token is
validated to the claims and its bearer let through, and after that the token is refused, and its
bearer told so, since it has ended. -/
structure CheckAnswer (engine : Auth.Engine) (token : String) (claims : Auth.Claims) (limit : Int)
    (site : Site (World Store)) (clock : Instant) (result : Except Failure Response) : Prop where
  live : clock.seconds ≤ limit → engine.validate site.world.keys clock token = .ok claims ∧
    result = .ok (shown (.record [("status", .text "OK")]) .ok)
  ended : limit < clock.seconds → engine.validate site.world.keys clock token = .error .expired ∧
    result = .ok (RequestError.unauthorized "token has expired").response

/-- A token that the engine has written for an administrator lasts until the claims have ended and
the leeway is over, as long as its key stays. -/
theorem checkAnswer_run {s : Settings Store} {keys : Auth.KeyStore} {token : String}
    {claims : Auth.Claims} (hwritten : Written s.engine keys token claims)
    (hc : claims.Representable) (hend : 0 ≤ claims.expiresAt.seconds)
    (hadmin : claims.hasRole Auth.admin = true) (hissuer : s.engine.issuer = some claims.issuer)
    {site : Site (World Store)} (hkeys : site.world.keys = keys) {clock : Instant} {r : Incoming}
    (hmethod : r.method = "GET") (hpath : r.path = "/v1/testauth")
    (htoken : Auth.bearerToken r.headers = .ok token) (hepoch : 0 ≤ clock.nanos)
    (hrange : clock.isTimestamp = true) (hleeway : (s.engine.leeway : Int) ≤ clock.seconds) :
    CheckAnswer s.engine token claims (claims.expiresAt.seconds + s.engine.leeway) site clock
      (site.run clock ((application s).serve r)).1 := by
  subst hkeys
  constructor
  · intro hlive
    have hvalidate := hwritten.accepted hc s.engine site.world.keys clock rfl rfl (.inr hissuer)
      hleeway hlive
    exact ⟨hvalidate, run_testauth_of_bears s site hmethod hpath hepoch hrange
      ⟨token, htoken, hvalidate⟩ hadmin⟩
  · intro hended
    obtain ⟨salt, hsalt, hgenerate⟩ := hwritten
    have haccept : s.engine.accept site.world.keys clock token = .error .expired := by
      rw [Auth.Engine.accept_generate_of_ended hc (fun _ => hsalt) hgenerate rfl rfl hended,
        Auth.Engine.endFault_eq_expired_iff.2 hend]
    have hpresented : Auth.presented s.engine site.world.keys clock r.headers =
        .error .expired := by
      rw [Auth.presented, htoken]
      exact haccept
    refine ⟨by rw [Auth.Engine.validate, haccept]; rfl, ?_⟩
    exact run_testauth_of_presented_eq_error s site hmethod hpath hepoch hrange hpresented

end Api

namespace Startup

open Http Pipeline Api
open Accounts (Store)

/-! ### Coming up -/

theorem scheme?_rs256 : Auth.Algorithm.rs256.scheme? = some ⟨.fixed, .sha256⟩ := rfl

/-- The engine that a configuration makes. -/
def engineOf (c : Config) : Auth.Engine where
  activeKid := c.activeKid
  algorithm := .rs256
  scheme := ⟨.fixed, .sha256⟩
  issuer := some c.issuer
  leeway := c.leeway
  scheme_eq := scheme?_rs256

/-- What the routes depend on under a configuration. -/
def settingsOf (c : Config) (scheme : Accounts.PasswordScheme) : Settings Store :=
  ⟨engineOf c, .memory scheme, c.issuer, .ofSeconds c.tokenTtl⟩

/-- A service that has just come up. -/
def upWith (c : Config) (scheme : Accounts.PasswordScheme) (keys : Auth.KeyStore) (store : Store)
    (entropy : Entropy) : Running :=
  ⟨c, settingsOf c scheme, application (settingsOf c scheme),
    ⟨.zero, false, entropy, ⟨keys, store⟩⟩⟩

/-- A configuration is provided for: it names an administrator whose password can be hashed, its
folder has keys that can be loaded, and the active one is among them and signs whatever it is
given. -/
structure Provided (c : Config) (folders : Folders) (scheme : Accounts.PasswordScheme)
    (admin : SeedAdmin) (keys : Auth.KeyStore) : Prop where
  seeded : c.seedAdmin = some admin
  hashes : ∀ salt, salt.length = Accounts.saltSize →
    ∃ hash, scheme.hash salt admin.password = .ok hash
  loaded : ∃ entries, folders c.keysFolder = .ok entries ∧
    KeyFolder.load c.keysFolder entries = .ok keys
  signs : (engineOf c).CanSign keys

/-- The submission of an administrator whose email and password are trimmed is acceptable. -/
theorem validate_seedUser {admin : SeedAdmin} (hemail : Text.Trimmed admin.email)
    (hpassword : Text.Trimmed admin.password) (hat : '@' ∈ admin.email.toList) :
    (seedUser admin).validate = .ok () := by
  have hname : Text.isBlankText "Administrator" = false := by decide
  have hrole : Auth.admin ∈ Auth.knownRoles := List.mem_cons_self
  exact Accounts.NewUser.validate_eq_ok_iff.2
    ⟨hname, hemail.not_blank, hat, hrole, hpassword.not_blank, rfl⟩

/-- The administrator as kept under an identifier. -/
def administrator (admin : SeedAdmin) (id : Uuid) : Accounts.User :=
  ⟨id, "Administrator", admin.email, Auth.admin⟩

theorem toUser_seedUser {admin : SeedAdmin} (hemail : Text.Trimmed admin.email) (id : Uuid) :
    (seedUser admin).toUser id = administrator admin id := by
  have hname : Text.trim "Administrator" = "Administrator" := by decide
  rw [Accounts.NewUser.toUser, seedUser, hemail.trim_eq, hname, administrator]

section Boot

variable {c : Config} {folders : Folders} {scheme : Accounts.PasswordScheme} {admin : SeedAdmin}
  {keys : Auth.KeyStore} (hprovided : Provided c folders scheme admin keys)

include hprovided

theorem loadKeys_eq_ok : ∃ logged, loadKeys c folders = (logged, .ok keys) := by
  obtain ⟨entries, hentries, hload⟩ := hprovided.loaded
  have hresult : (KeyFolder.loadTraced c.keysFolder entries).1 = .ok keys := hload
  simp only [loadKeys, hentries, hresult]
  exact ⟨_, rfl⟩

theorem makeEngine_eq_ok : makeEngine c keys = .ok (engineOf c) := by
  obtain ⟨key, hkey, -⟩ := hprovided.signs
  have hmake : Auth.Engine.make c.activeKid keys .rs256 (some c.issuer) c.leeway =
      .ok (engineOf c) :=
    Auth.Engine.make_eq_ok scheme?_rs256 (Auth.KeyStore.lookup_eq_ok_iff.2 hkey)
  rw [makeEngine, hmake]

/-- The administrator is created, and nobody else is there. -/
theorem create_seedUser (hproper : c.Proper) (hat : '@' ∈ admin.email.toList) (entropy : Entropy) :
    ∃ id password entropy', Store.create scheme (seedUser admin) .empty entropy =
      (.ok (administrator admin id), Store.empty.insert ⟨administrator admin id, password⟩,
        entropy') := by
  obtain ⟨hemail, hpassword⟩ := hproper.seedAdmin admin hprovided.seeded
  have hsize : (entropy.take Accounts.saltSize).1.length = Accounts.saltSize := by
    simp [Entropy.take]
  obtain ⟨password, hhash⟩ := hprovided.hashes _ hsize
  refine ⟨(Uuid.draw (entropy.take Accounts.saltSize).2).1, password, _,
    Store.create_eq_ok_iff.2 ⟨validate_seedUser hemail hpassword hat, password, hhash, ?_, rfl, rfl,
      rfl⟩⟩
  exact (toUser_seedUser hemail _).symm

/-- A service that is provided for comes up, with its administrator in the store. -/
theorem boot_eq_ok {user : Accounts.User} {store : Store} {entropy entropy' : Entropy}
    (hcreate : Store.create scheme (seedUser admin) .empty entropy = (.ok user, store, entropy')) :
    ∃ logged, boot c folders scheme entropy =
      (logged, .ok (upWith c scheme keys store entropy')) := by
  obtain ⟨logged, hkeys⟩ := loadKeys_eq_ok hprovided
  have hengine := makeEngine_eq_ok hprovided
  have hroutes : bindRoutes (settingsOf c scheme) = .ok (application (settingsOf c scheme)) := by
    rw [bindRoutes, app_eq_ok]
  rw [settingsOf] at hroutes
  simp only [boot, hkeys, hengine, seed, hprovided.seeded, hcreate, hroutes]
  exact ⟨_, rfl⟩

/-- A start from variables whose configuration is provided for. -/
theorem start_eq {vars : Config.Variables} (hload : Config.load vars = .ok c)
    {user : Accounts.User} {store : Store} {entropy entropy' : Entropy}
    (hcreate : Store.create scheme (seedUser admin) .empty entropy = (.ok user, store, entropy')) :
    ∃ log, start vars folders scheme entropy =
      (⟨0, log, none⟩, some (upWith c scheme keys store entropy')) := by
  obtain ⟨logged, hboot⟩ := boot_eq_ok hprovided hcreate
  simp only [start, hload, hboot]
  exact ⟨_, rfl⟩

end Boot

/-! ### The administrator -/

section Administrator

variable {c : Config} {scheme : Accounts.PasswordScheme} {admin : SeedAdmin}

/-- At first the administrator is registered, and nobody else. -/
theorem reached_upWith (a : App (World Store)) {user : Accounts.User} {store : Store}
    {entropy entropy' : Entropy} (keys : Auth.KeyStore)
    (hcreate : Store.create scheme (seedUser admin) .empty entropy = (.ok user, store, entropy')) :
    Reached a scheme [⟨seedUser admin, user⟩] (upWith c scheme keys store entropy').site :=
  (Reached.start .zero false entropy keys).registered hcreate

/-- Whoever presents the email and the password of the configuration has the credentials of the
administrator. -/
theorem credited_administrator {id : Uuid} {headers : List Header}
    (hemail : Text.Trimmed admin.email) (hpassword : Text.Trimmed admin.password)
    (hat : '@' ∈ admin.email.toList) (hcolon : ':' ∉ admin.email.toList)
    (hpresents : Auth.PresentsPair headers admin.email admin.password) :
    Credited [⟨seedUser admin, administrator admin id⟩] headers
      ⟨seedUser admin, administrator admin id⟩ := by
  have hsame : Text.eqIgnoringCase (Text.trim (seedUser admin).email) admin.email = true := by
    rw [seedUser, hemail.trim_eq, Text.eqIgnoringCase_iff]
  exact credited_of_presents
    ⟨validate_seedUser hemail hpassword hat, id, (toUser_seedUser hemail id).symm⟩
    ⟨[], [], rfl, fun _ hm => (List.not_mem_nil hm).elim⟩ hcolon hsame hpresents

/-- The claims of an administrator have the role. -/
theorem hasRole_claimsOf_administrator (id : Uuid) (issuer : String) (now : Instant) (ttl : Int) :
    (claimsOf (administrator admin id) issuer now ttl).hasRole Auth.admin = true := by
  rfl

/-- A token that was written for the administrator lasts as long as the configuration says. -/
theorem checkAnswer_of_written {id : Uuid} {keys : Auth.KeyStore} {token : String}
    {clock clock' : Instant} (hpositive : 0 < c.tokenTtl) (hepoch : 0 ≤ clock.nanos)
    (hend : (clock.floorSecond.add (.ofSeconds c.tokenTtl)).isTimestamp = true)
    (hwritten : Written (engineOf c) keys token
      (claimsOf (administrator admin id) c.issuer clock c.tokenTtl))
    {site : Site (World Store)} (hkeys : site.world.keys = keys) {r : Incoming}
    (hmethod : r.method = "GET") (hpath : r.path = "/v1/testauth")
    (htoken : Auth.bearerToken r.headers = .ok token) (hepoch' : 0 ≤ clock'.nanos)
    (hrange : clock'.isTimestamp = true) (hleeway : (c.leeway : Int) ≤ clock'.seconds) :
    CheckAnswer (engineOf c) token (claimsOf (administrator admin id) c.issuer clock c.tokenTtl)
      (clock.seconds + c.tokenTtl + c.leeway) site clock'
      (site.run clock' ((application (settingsOf c scheme)).serve r)).1 := by
  have hlimit : (claimsOf (administrator admin id) c.issuer clock c.tokenTtl).expiresAt.seconds =
      clock.seconds + c.tokenTtl := by
    rw [claimsOf, Instant.floorSecond_add_ofSeconds, Instant.seconds_ofSeconds]
  have hseconds : 0 ≤ clock.seconds := Int.ediv_nonneg hepoch (by decide)
  have hanswer := checkAnswer_run (s := settingsOf c scheme) hwritten
    (representable_claimsOf _ _ (isTimestamp_of_end hpositive hepoch hend) hend)
    (by rw [hlimit]; omega) (hasRole_claimsOf_administrator id c.issuer clock c.tokenTtl) rfl hkeys
    hmethod hpath htoken hepoch' hrange hleeway
  rw [hlimit] at hanswer
  exact hanswer

/-- What a service that is up makes of a request for a token, in which its administrator presents
the email and the password: the request is answered with a token, and whatever requests follow, the
token lasts as long as the configuration says. -/
structure Admits (running : Running) (clock : Instant) (r : Incoming) (token : String)
    (claims : Auth.Claims) : Prop where
  answered : (running.site.run clock (running.app.serve r)).1 =
    .ok (shown (.record [("token", .text token)]) .ok)
  role : claims.hasRole Auth.admin = true
  /-- The token can be sent in a header. -/
  borne : ∀ headers, Auth.PresentsToken headers token → Auth.bearerToken headers = .ok token
  /-- The time that tokens hold and the leeway are counted in whole seconds of the clock. -/
  lasts : ∀ (rs : List (Instant × Incoming)) (clock' : Instant) (r' : Incoming),
    r'.method = "GET" → r'.path = "/v1/testauth" → Auth.bearerToken r'.headers = .ok token →
    0 ≤ clock'.nanos → clock'.isTimestamp = true →
    (running.config.leeway : Int) ≤ clock'.seconds →
    let site := after running.app (running.site.run clock (running.app.serve r)).2.1 rs
    CheckAnswer running.settings.engine token claims
      (clock.seconds + running.config.tokenTtl + running.config.leeway) site clock'
      (site.run clock' (running.app.serve r')).1

/-- A service that has come up with its administrator admits whoever presents the email and the
password. -/
theorem admits_upWith {folders : Folders} {keys : Auth.KeyStore}
    (hprovided : Provided c folders scheme admin keys) (hproper : c.Proper)
    (hfaithful : scheme.Faithful) (hat : '@' ∈ admin.email.toList)
    (hcolon : ':' ∉ admin.email.toList) {id : Uuid} {store : Store} {entropy entropy' : Entropy}
    (hcreate : Store.create scheme (seedUser admin) .empty entropy =
      (.ok (administrator admin id), store, entropy'))
    (clock : Instant) (r : Incoming) (hepoch : 0 ≤ clock.nanos)
    (hend : (clock.floorSecond.add (.ofSeconds c.tokenTtl)).isTimestamp = true)
    (hmethod : r.method = "GET") (hpath : r.path = "/v1/users/token")
    (hpresents : Auth.PresentsPair r.headers admin.email admin.password) :
    ∃ token claims, Admits (upWith c scheme keys store entropy') clock r token claims := by
  obtain ⟨hemail, hpassword⟩ := hproper.seedAdmin admin hprovided.seeded
  have hpositive : 0 < c.tokenTtl := hproper.tokenTtl.1
  let s := settingsOf c scheme
  have hbackend : s.backend = .memory scheme := rfl
  have hreached := reached_upWith (c := c) (application s) keys hcreate
  obtain ⟨token, hshown, hwritten⟩ := written_run hbackend hfaithful (hreached.records hbackend)
    (credited_administrator hemail hpassword hat hcolon hpresents) rfl hpositive hprovided.signs
    hepoch hend hmethod hpath
  refine ⟨token, claimsOf (administrator admin id) c.issuer clock c.tokenTtl,
    { answered := hshown
      role := hasRole_claimsOf_administrator id c.issuer clock c.tokenTtl
      borne := fun headers => hwritten.bearerToken
      lasts := ?_ }⟩
  intro rs clock' r' hmethod' hpath' htoken hepoch' hrange' hleeway'
  -- No request takes the keys away, so the token is checked under the key that signed it.
  have hkeys := keys_after hbackend ((clock, r) :: rs) (upWith c scheme keys store entropy').site
  exact checkAnswer_of_written hpositive hepoch hend hwritten hkeys hmethod' hpath' htoken hepoch'
    hrange' hleeway'

end Administrator

/-- The administrator of a configuration can use the service that the configuration makes. From
variables whose configuration is provided for, the service comes up, with the administrator in the
store and nobody else, and without a signal to stop. It admits whoever presents the email and the
password then, from 1970 on and as long as the end of a token can be held in a timestamp. -/
theorem usable_start {vars : Config.Variables} {folders : Folders}
    {scheme : Accounts.PasswordScheme} {c : Config} {admin : SeedAdmin} {keys : Auth.KeyStore}
    (hload : Config.load vars = .ok c) (hprovided : Provided c folders scheme admin keys)
    (hfaithful : scheme.Faithful) (hat : '@' ∈ admin.email.toList)
    (hcolon : ':' ∉ admin.email.toList) (entropy : Entropy) :
    ∃ log running id account,
      start vars folders scheme entropy = (⟨0, log, none⟩, some running) ∧
      running.config = c ∧ running.site.world.keys = keys ∧ running.site.signalled = false ∧
      running.site.world.accounts.accounts = [account] ∧
      account.user = administrator admin id ∧
      ∀ (clock : Instant) (r : Incoming), 0 ≤ clock.nanos →
        (clock.floorSecond.add (.ofSeconds c.tokenTtl)).isTimestamp = true →
        r.method = "GET" → r.path = "/v1/users/token" →
        Auth.PresentsPair r.headers admin.email admin.password →
        ∃ token claims, Admits running clock r token claims := by
  have hproper := Config.proper_of_load hload
  obtain ⟨id, password, entropy', hcreate⟩ := create_seedUser hprovided hproper hat entropy
  obtain ⟨log, hstart⟩ := start_eq hprovided hload hcreate
  refine ⟨log, _, id, ⟨administrator admin id, password⟩, hstart, rfl, rfl, rfl, rfl, rfl, ?_⟩
  intro clock r hepoch hend hmethod hpath hpresents
  exact admits_upWith hprovided hproper hfaithful hat hcolon hcreate clock r hepoch hend hmethod
    hpath hpresents

/-! ### A sample configuration -/

/-- Variables that are set with blanks around the values. -/
def sampleVariables : Config.Variables
  | "AUTH_ACTIVE_KID" => some " key"
  | "AUTH_ISSUER" => some "accounts "
  | "AUTH_LEEWAY_SECS" => some "60\n"
  | "SEED_ADMIN_EMAIL" => some " ada@example.org"
  | "SEED_ADMIN_PASSWORD" => some "secret"
  | _ => none

/-- The administrator that they name. -/
def sampleAdmin : SeedAdmin := ⟨"ada@example.org", "secret"⟩

/-- The configuration that they set. -/
def sampleConfig : Config where
  host := .v4 0 0 0 0
  port := 3000
  debugPort := 4000
  keysFolder := "zarf/keys"
  activeKid := "key"
  issuer := "accounts"
  tokenTtl := 3600
  leeway := 60
  shutdownTimeout := 20
  build := "develop"
  seedAdmin := some sampleAdmin

theorem load_sampleVariables : Config.load sampleVariables = .ok sampleConfig := by
  decide +kernel

/-- A folder with one key file. -/
def sampleFolders : Folders := fun _ =>
  .ok [⟨"key.pem", .file (Octets.ofText Auth.Keyring.sampleFile)⟩]

/-- A folder with one key file has its key. -/
theorem load_singleton {folder name kid file : String} {key : Rsa.KeyPair}
    (hkid : KeyFolder.kidOf? name = some kid) (hkey : Pem.keyPair? file = some key) :
    KeyFolder.load folder [⟨name, .file (Octets.ofText file)⟩] =
      .ok (Auth.KeyStore.empty.insert kid key) := by
  have hfiles : KeyFolder.keyFiles [⟨name, .file (Octets.ofText file)⟩] =
      [⟨kid, name, Octets.ofText file⟩] := by
    simp only [KeyFolder.keyFiles, List.filterMap_cons, KeyFolder.Entry.keyFile?, hkid,
      Option.map_some, List.filterMap_nil]
  simp only [KeyFolder.load, KeyFolder.loadTraced, hfiles, KeyFolder.addFiles, KeyFolder.addFile,
    Octets.toText?_ofText, Auth.KeyStore.insertFile, hkey]

theorem provided_sampleConfig :
    Provided sampleConfig sampleFolders .plain sampleAdmin Auth.Engine.sampleKeys where
  seeded := rfl
  hashes salt _ := ⟨_, rfl⟩
  loaded := ⟨_, rfl, load_singleton (by decide) Auth.Keyring.keyPair?_sampleFile⟩
  signs := canSign_sample (some "accounts")

/-- A request for the check of the role as a client sends it. -/
def checkWith (token : String) : Incoming :=
  ⟨"GET", "/v1/testauth", [⟨"Authorization", Octets.ofText ("Bearer " ++ token)⟩], [], none⟩

theorem presentsToken_checkWith (token : String) :
    Auth.PresentsToken (checkWith token).headers token :=
  Auth.firstHeader?_authorization _

theorem usable_start_sampleVariables :
    Config.load sampleVariables = .ok sampleConfig ∧
      Provided sampleConfig sampleFolders .plain sampleAdmin Auth.Engine.sampleKeys ∧
      Accounts.PasswordScheme.plain.Faithful ∧ '@' ∈ sampleAdmin.email.toList ∧
      ':' ∉ sampleAdmin.email.toList ∧
      ∃ log running token,
        start sampleVariables sampleFolders .plain (.ofSeed []) = (⟨0, log, none⟩, some running) ∧
        let clock := Instant.ofSeconds 1700000000
        let r := login "ada@example.org" "secret"
        let site := (running.site.run clock (running.app.serve r)).2.1
        (running.site.run clock (running.app.serve r)).1 =
            .ok (shown (.record [("token", .text token)]) .ok) ∧
          (site.run (.ofSeconds 1700003660) (running.app.serve (checkWith token))).1 =
            .ok (shown (.record [("status", .text "OK")]) .ok) ∧
          (site.run (.ofSeconds 1700003661) (running.app.serve (checkWith token))).1 =
            .ok (RequestError.unauthorized "token has expired").response := by
  have hat : '@' ∈ sampleAdmin.email.toList := by decide
  have hcolon : ':' ∉ sampleAdmin.email.toList := by decide
  obtain ⟨log, running, id, account, hstart, hconfig, -, -, -, -, hadmits⟩ :=
    usable_start load_sampleVariables provided_sampleConfig Accounts.PasswordScheme.faithful_plain
      hat hcolon (.ofSeed [])
  obtain ⟨token, claims, h⟩ := hadmits (.ofSeconds 1700000000) (login "ada@example.org" "secret")
    (by decide) (by decide) rfl rfl (presentsPair_login _ _)
  have htoken := h.borne _ (presentsToken_checkWith token)
  have hlive := (h.lasts [] (.ofSeconds 1700003660) (checkWith token) rfl rfl htoken (by decide)
    (by decide) (by rw [hconfig]; decide)).live (by rw [hconfig]; decide)
  have hended := (h.lasts [] (.ofSeconds 1700003661) (checkWith token) rfl rfl htoken (by decide)
    (by decide) (by rw [hconfig]; decide)).ended (by rw [hconfig]; decide)
  exact ⟨load_sampleVariables, provided_sampleConfig, Accounts.PasswordScheme.faithful_plain, hat,
    hcolon, log, running, token, hstart, h.answered, hlive.2, hended.2⟩

/-- The token of an administrator is not refused at every instant after the time that tokens hold
and the leeway. It lasts to the end of the second that has then begun; and where the clock reads
more than a timestamp can hold there is no answer at all. -/
theorem not_usable_start :
    Config.load sampleVariables = .ok sampleConfig ∧
      Provided sampleConfig sampleFolders .plain sampleAdmin Auth.Engine.sampleKeys ∧
      ∃ log running token,
        start sampleVariables sampleFolders .plain (.ofSeed []) = (⟨0, log, none⟩, some running) ∧
        let clock := Instant.ofSeconds 1700000000
        let r := login "ada@example.org" "secret"
        let site := (running.site.run clock (running.app.serve r)).2.1
        let limit := Instant.ofSeconds (1700000000 + sampleConfig.tokenTtl + sampleConfig.leeway)
        (running.site.run clock (running.app.serve r)).1 =
            .ok (shown (.record [("token", .text token)]) .ok) ∧
          (limit.nanos < 1700003660500000000 ∧
            (site.run ⟨1700003660500000000⟩ (running.app.serve (checkWith token))).1 =
              .ok (shown (.record [("status", .text "OK")]) .ok)) ∧
          limit.nanos < (Instant.ofSeconds 8210266876800).nanos ∧
            (site.run (.ofSeconds 8210266876800) (running.app.serve (checkWith token))).1 =
              .error (.panic (.text Clock.overrunMessage)) := by
  have hproper := Config.proper_of_load load_sampleVariables
  have hat : '@' ∈ sampleAdmin.email.toList := by decide
  obtain ⟨id, password, entropy, hcreate⟩ :=
    create_seedUser provided_sampleConfig hproper hat (.ofSeed [])
  obtain ⟨log, hstart⟩ := start_eq provided_sampleConfig load_sampleVariables hcreate
  obtain ⟨token, claims, h⟩ := admits_upWith provided_sampleConfig hproper
    Accounts.PasswordScheme.faithful_plain hat (by decide) hcreate (.ofSeconds 1700000000)
    (login "ada@example.org" "secret") (by decide) (by decide) rfl rfl (presentsPair_login _ _)
  have htoken := h.borne _ (presentsToken_checkWith token)
  -- Half a second after the limit the clock still reads the same second.
  have hleeway : (sampleConfig.leeway : Int) ≤ (Instant.mk 1700003660500000000).seconds := by decide
  have hlimit : (Instant.mk 1700003660500000000).seconds ≤
      (Instant.ofSeconds 1700000000).seconds + sampleConfig.tokenTtl + sampleConfig.leeway := by
    decide
  have hlive := (h.lasts [] ⟨1700003660500000000⟩ (checkWith token) rfl rfl htoken (by decide)
    (by decide) hleeway).live hlimit
  have hoverrun : Clock.read (.ofSeconds 8210266876800) = .error Clock.overrunMessage := by decide
  have hproper' : Resource.testauth.Proper := trivial
  exact ⟨load_sampleVariables, provided_sampleConfig, log, _, token, hstart, h.answered,
    ⟨by decide, hlive.2⟩, by decide, (run_of_fault _ _ _ hproper' rfl (.inl rfl) hoverrun).1⟩

end Startup

end AccountService
