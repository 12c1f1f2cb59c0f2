import AccountService.Proofs.Service.Tokens
import AccountService.Proofs.Text.Percent

/-!
# Accounts found by their email

An administrator finds every account under every form of its email: in whatever case its ASCII
letters are written and whichever octets are escaped. What is answered reads back as the account. An
email that no account has is answered as such.

## Main definitions

* `Api.emailTarget` — the target that asks for an email
* `Api.FoundByEmail` — what an administrator finds by email

## Main statements

* `Api.outcome_email_of_admin` — what the store knows of an email is what is answered
* `Api.foundByEmail_serve` — every site that the service can come to
* `Api.FoundByEmail.exists_target` — every account has a target under which it is found
* `Api.not_foundByEmail_beyond_timestamps` — a clock that reads too much
-/

namespace AccountService.Api

open Http Pipeline
open Accounts (Registration Store User)
open Percent (Encodes)

/-- The target that asks for an email, which is encoded in the segment. -/
def emailTarget (segment : String) : String := "/v1/users/email/" ++ segment

/-- A request for a target with the headers of another. -/
def getting (r : Incoming) (target : String) : Incoming :=
  { r with method := "GET", path := pathOfTarget target }

theorem proper_email_of_isSegment {segment : String} (h : IsSegment segment) :
    (Resource.email segment.toList).Proper :=
  ⟨fun hnil => h.ne_empty (String.toList_eq_nil_iff.1 hnil), h.notMem '/' (by decide)⟩

/-- A request for a target that ends with one segment has the path that the target names. -/
theorem toList_path_getting {front segment : String} (h : IsSegment segment)
    (hquery : '?' ∉ front.toList) (hfragment : '#' ∉ front.toList) (r : Incoming) :
    (getting r (front ++ segment)).path.toList = front.toList ++ segment.toList :=
  (congrArg String.toList (pathOfTarget_append h hquery hfragment)).trans String.toList_append

theorem path_getting_emailTarget {segment : String} (h : IsSegment segment) (r : Incoming) :
    (getting r (emailTarget segment)).path.toList = (Resource.email segment.toList).path :=
  toList_path_getting h (by decide +kernel) (by decide +kernel) r

section Lookup

variable {σ : Type} (s : Settings σ) (site : Site (World σ)) (clock now : Instant) (r : Incoming)

/-- What the store knows of an email is what an administrator is answered. -/
theorem outcome_email_of_admin {address : List Char} {email : String} {c : Auth.Claims}
    (hbears : Auth.Bears s.engine site.world.keys clock r.headers c)
    (hrole : c.hasRole Auth.admin = true) (hdecode : decodeValue address = some email) :
    (outcome s site clock now r (.email address)).1 =
      match s.backend.byEmail site.world.accounts email with
      | .ok user => .ok (shown user.json .ok)
      | .error err => .error (.error err.toPipeline) := by
  obtain ⟨event, hnext⟩ := exec_admin_of_hasRole s.engine (queryByEmail s)
    (arriving site clock now r (.email address)) (opening site clock now r (.email address)) hbears
    hrole
  have hquery := exec_queryByEmail_of_reads
    (r := { arriving site clock now r (.email address) with claims := some c })
    (context_arriving site clock now r (.email address)) s
    ((opening site clock now r (.email address)).logging event)
    ((reads_iff_of_params rfl).2 hdecode)
  have houtcome := congrArg Prod.fst (hnext.trans hquery)
  rw [Exchange.world_logging, world_opening] at houtcome
  refine Eq.trans houtcome ?_
  cases s.backend.byEmail site.world.accounts email <;> rfl

end Lookup

/-! ### Every form of an email -/

/-- What an administrator finds by email among accounts, by the result of the request for a
target. -/
structure FoundByEmail (accounts : Store) (result : String → Except Failure Response) : Prop where
  /-- An account is found under every encoding of every text that is its email up to the case of
  ASCII letters, and what is answered reads back as the account. -/
  found : ∀ account ∈ accounts.accounts, ∀ email segment : String,
    Text.eqIgnoringCase account.user.email email = true →
    Encodes (Octets.ofText email) (Octets.ofText segment) →
    ∃ answer, result (emailTarget segment) = .ok answer ∧ answer.status = .ok ∧
      User.told? answer.body = some account.user
  /-- A segment that denotes the email of no account is answered as such. -/
  missing : ∀ email segment : String, IsSegment segment →
    decodeValue segment.toList = some email →
    (∀ account ∈ accounts.accounts, Text.eqIgnoringCase account.user.email email = false) →
    ∃ answer, result (emailTarget segment) = .ok answer ∧ answer.status = .notFound

/-- There is a target under which an account is found. -/
theorem FoundByEmail.exists_target {accounts : Store} {result : String → Except Failure Response}
    (h : FoundByEmail accounts result) {account : Accounts.Account}
    (haccount : account ∈ accounts.accounts) :
    ∃ target answer, result target = .ok answer ∧ answer.status = .ok ∧
      User.told? answer.body = some account.user :=
  ⟨_, h.found account haccount account.user.email _ ((Text.eqIgnoringCase_iff _ _).2 rfl)
    (Percent.encodes_escapeAll _)⟩

section Admin

variable {scheme : Accounts.PasswordScheme} {s : Settings Store} {site : Site (World Store)}
  {clock : Instant} {r : Incoming} {c : Auth.Claims} {email segment : String}
  (hepoch : 0 ≤ clock.nanos) (hrange : clock.isTimestamp = true)
  (hbears : Auth.Bears s.engine site.world.keys clock r.headers c)
  (hrole : c.hasRole Auth.admin = true)

include hepoch hrange hbears hrole

/-- What the store knows of the email in a segment is what an administrator is sent. -/
theorem run_emailTarget (hsegment : IsSegment segment)
    (hdecode : decodeValue segment.toList = some email) :
    (site.run clock ((application s).serve (getting r (emailTarget segment)))).1 =
      .ok (match s.backend.byEmail site.world.accounts email with
        | .ok user => shown user.json .ok
        | .error err => answerOf (.error (.error err.toPipeline))) := by
  have hrun := run_of_get s site clock (proper_email_of_isSegment hsegment)
    (path_getting_emailTarget hsegment r) rfl rfl (Clock.read_eq_ok_iff.2 ⟨rfl, hepoch, hrange⟩)
  rw [hrun, outcome_email_of_admin s site clock clock (getting r (emailTarget segment)) hbears hrole
    hdecode]
  cases s.backend.byEmail site.world.accounts email <;> rfl

/-- An administrator finds every account of an orderly store by its email, and nothing else. -/
theorem foundByEmail_of_orderly (hbackend : s.backend = .memory scheme)
    (horderly : site.world.accounts.Orderly) :
    FoundByEmail site.world.accounts fun target =>
      (site.run clock ((application s).serve (getting r target))).1 where
  found account haccount email segment hemail hencodes := by
    -- The email has an `@` in it, and so has every form of it.
    have hat : '@' ∈ email.toList :=
      Text.mem_toList_of_eqIgnoringCase hemail (by decide) (horderly.proper account haccount).at_mem
    have hne : email ≠ "" := by
      rintro rfl
      exact List.not_mem_nil hat
    have hrun := run_emailTarget hepoch hrange hbears hrole (isSegment_of_encodes hencodes hne)
      (decodeValue_of_encodes hencodes)
    have hfind := horderly.findEmail?_eq_some_iff.2 ⟨haccount, hemail⟩
    have hstore : s.backend.byEmail site.world.accounts email = .ok account.user := by
      rw [hbackend]
      exact Store.byEmail_eq_ok_iff.2 ⟨account, hfind, rfl⟩
    rw [hstore] at hrun
    exact ⟨_, hrun, rfl, User.told?_render account.user⟩
  missing email segment hsegment hdecode hnone := by
    have hrun := run_emailTarget hepoch hrange hbears hrole hsegment hdecode
    have hstore : s.backend.byEmail site.world.accounts email = .error .notFound := by
      rw [hbackend]
      show Store.byEmail _ _ = _
      rw [Store.byEmail, Store.findEmail?_eq_none_iff.2 hnone]
    rw [hstore] at hrun
    exact ⟨_, hrun, rfl⟩

end Admin

/-- While the clock can be read, whoever bears a live token of an administrator finds every account
of the service under every form of its email, and is told of every other email that no account has
it. -/
theorem foundByEmail_serve (engine : Auth.Engine) (scheme : Accounts.PasswordScheme)
    (issuer : String) (tokenTtl : Span) :
    ∃ a, app ⟨engine, .memory scheme, issuer, tokenTtl⟩ = .ok a ∧
      ∀ (ms : List Registration) (site : Site (World Store)), Reached a scheme ms site →
        ∀ (clock : Instant) (r : Incoming) (c : Auth.Claims), 0 ≤ clock.nanos →
          clock.isTimestamp = true → Auth.Bears engine site.world.keys clock r.headers c →
          c.hasRole Auth.admin = true →
          FoundByEmail site.world.accounts fun target =>
            (site.run clock (a.serve (getting r target))).1 := by
  refine ⟨_, app_eq_ok _, fun ms site hreached clock r c hepoch hrange hbears hrole => ?_⟩
  let s : Settings Store := ⟨engine, .memory scheme, issuer, tokenTtl⟩
  have hbackend : s.backend = .memory scheme := rfl
  exact foundByEmail_of_orderly (s := s) hepoch hrange hbears hrole hbackend
    (hreached.records hbackend).orderly

/-! ### A site with an account -/

/-- Claims of an administrator until the last second that a timestamp can hold. -/
def adminClaims : Auth.Claims :=
  ⟨"root", "accounts", .ofSeconds 1700000000, .ofSeconds Instant.lastSecond, .ofList [Auth.admin]⟩

/-- There is a request that bears a live token of an administrator, until the leeway after the last
second is over. -/
theorem exists_bears_adminClaims (clock : Instant) (hleeway : 60 ≤ clock.seconds)
    (hlive : clock.seconds ≤ Instant.lastSecond + 60) :
    ∃ r : Incoming, Auth.Bears (.sample (some "accounts")) Auth.Engine.sampleKeys clock r.headers
      adminClaims := by
  have hform : adminClaims.WellFormed := by constructor <;> decide
  have hrepresentable : adminClaims.Representable := by constructor <;> decide
  obtain ⟨token, hgenerate⟩ :=
    (canSign_sample (some "accounts")).exists_generate (List.replicate 32 0) hform
  have hwritten : Written (.sample (some "accounts")) Auth.Engine.sampleKeys token adminClaims :=
    ⟨_, List.length_replicate, hgenerate⟩
  have hpresents : Auth.PresentsToken
      [⟨"Authorization", Octets.ofText ("Bearer " ++ token)⟩] token :=
    Auth.firstHeader?_authorization _
  have hend : adminClaims.expiresAt.seconds = Instant.lastSecond := Instant.seconds_ofSeconds _
  exact ⟨⟨"GET", "/", [⟨"Authorization", Octets.ofText ("Bearer " ++ token)⟩], [], none⟩, token,
    hwritten.bearerToken hpresents, hwritten.accepted hrepresentable _ _ _ rfl rfl (.inr rfl)
      hleeway (hend ▸ hlive)⟩

/-- A submission with an email of a letter beyond ASCII, a slash, a percent sign and a quote. -/
def oddSubmission : Accounts.NewUser := submissionOf "é/%\"@Example.org" "secret"

theorem foundByEmail_serve_oddSubmission :
    ∃ a, app ⟨.sample (some "accounts"), .memory .plain, "accounts", .ofSeconds 3600⟩ = .ok a ∧
      Reached a .plain [registrationAt emptySite oddSubmission] (submitted emptySite oddSubmission) ∧
      ∃ r : Incoming, Auth.Bears (.sample (some "accounts"))
          (submitted emptySite oddSubmission).world.keys (.ofSeconds 1700000060) r.headers
          adminClaims ∧
        adminClaims.hasRole Auth.admin = true ∧
        ∃ answer, ((submitted emptySite oddSubmission).run (.ofSeconds 1700000060)
            (a.serve (getting r (emailTarget "%c3%A9%2f%25\"@eXAMPLE%2Eorg")))).1 = .ok answer ∧
          answer.status = .ok ∧
          User.told? answer.body = some (registrationAt emptySite oddSubmission).user := by
  obtain ⟨a, ha, h⟩ := foundByEmail_serve (.sample (some "accounts")) .plain "accounts"
    (.ofSeconds 3600)
  obtain ⟨r, hbears⟩ := exists_bears_adminClaims (.ofSeconds 1700000060) (by decide)
    (by decide)
  have hrole : adminClaims.hasRole Auth.admin = true := by decide
  have hreached := reached_submitted a (n := oddSubmission) (by decide +kernel)
  refine ⟨a, ha, hreached, r, hbears, hrole, ?_⟩
  have hfound := h _ _ hreached (.ofSeconds 1700000060) r adminClaims (by decide) (by decide) hbears
    hrole
  obtain rfl := Except.ok.inj (ha.symm.trans (app_eq_ok _))
  obtain ⟨account, haccount, hkeeps⟩ := (hreached.records rfl).complete _
    ⟨[], [], rfl, fun _ hm => (List.not_mem_nil hm).elim⟩
  have hemail : Text.eqIgnoringCase account.user.email "é/%\"@eXAMPLE.org" = true := by
    rw [hkeeps.user]
    decide +kernel
  have hencodes : Encodes (Octets.ofText "é/%\"@eXAMPLE.org")
      (Octets.ofText "%c3%A9%2f%25\"@eXAMPLE%2Eorg") := by decide +kernel
  obtain ⟨answer, hresult, hstatus, htold⟩ := hfound.found account haccount _ _ hemail hencodes
  exact ⟨answer, hresult, hstatus, htold.trans (congrArg some hkeeps.user)⟩

/-- Not everybody who bears a live token of an administrator finds an account by its email: in the
leeway after the last second that a timestamp can hold, the request ends abruptly. -/
theorem not_foundByEmail_beyond_timestamps :
    ∃ a, app ⟨.sample (some "accounts"), .memory .plain, "accounts", .ofSeconds 3600⟩ = .ok a ∧
      ∃ m, m.user.email = "ada@example.org" ∧ Reached a .plain [m] adaSite ∧
        Encodes (Octets.ofText "ada@example.org") (Octets.ofText "ada%40example.org") ∧
        ∃ r : Incoming, Auth.Bears (.sample (some "accounts")) adaSite.world.keys
            (.ofSeconds 8210266876800) r.headers adminClaims ∧
          adminClaims.hasRole Auth.admin = true ∧
          (adaSite.run (.ofSeconds 8210266876800)
              (a.serve (getting r (emailTarget "ada%40example.org")))).1 =
            .error (.panic (.text "called `Option::unwrap()` on a `None` value")) := by
  obtain ⟨r, hbears⟩ := exists_bears_adminClaims (.ofSeconds 8210266876800) (by decide)
    (by decide)
  have hencodes : Encodes (Octets.ofText "ada@example.org") (Octets.ofText "ada%40example.org") := by
    decide +kernel
  have hsegment := isSegment_of_encodes hencodes (by decide)
  have hfault : Clock.read (.ofSeconds 8210266876800) = .error Clock.overrunMessage := by decide
  refine ⟨_, app_eq_ok _, _, rfl, reached_adaSite _, hencodes, r, hbears, by decide, ?_⟩
  exact (run_of_fault _ adaSite _ (proper_email_of_isSegment hsegment)
    (path_getting_emailTarget hsegment r) (.inl rfl) hfault).1

end AccountService.Api
