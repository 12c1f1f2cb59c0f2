import AccountService.Proofs.Service.Tokens

/-!
# Who can log in

An account is kept under the email of its submission without the blanks around it, and is searched
by what a client presents, as it is presented. So whoever was registered logs in by the email that
was shown, in whatever case, and not by one that has blanks around it.

## Main definitions

* `Api.LoginAnswer` — what becomes of whoever logs in to an account
* `Api.login` — a request for a token as a client sends it

## Main statements

* `Api.credited_of_presents`, `Api.not_credited_of_blanks` — who is credited, and who is not
* `Api.login_serve` — every account can log in by its email, and as submitted if that was trimmed
* `Api.not_login_serve` — two accounts that cannot log in as submitted
-/

namespace AccountService.Api

open Http Pipeline
open Accounts (Registration Stands Store)

/-- What becomes of whoever asks for a token with the password of a registration: it is handed out
for the email that was submitted without the blanks around it, in whatever case, but for no email
with blanks around it. -/
structure LoginAnswer (engine : Auth.Engine) (issuer : String) (ttl : Int)
    (site : Site (World Store)) (clock : Instant) (m : Registration) (headers : List Header)
    (result : Except Failure Response) : Prop where
  /-- The token that is handed out is accepted to the claims of the account. -/
  granted : ∀ email, Text.eqIgnoringCase (Text.trim m.submission.email) email = true →
    Auth.PresentsPair headers email m.submission.password →
    ∃ token, result = .ok (shown (.record [("token", .text token)]) .ok) ∧
      Accepted engine site.world.keys token (claimsOf m.user issuer clock ttl)
  /-- A refusal has the status 401. -/
  refused : Text.trim m.submission.email ≠ m.submission.email →
    Auth.PresentsPair headers m.submission.email m.submission.password →
    ∃ message ∈ refusals, result = .ok (RequestError.unauthorized message).response

section Credited

variable {ms : List Registration} {m : Registration} {headers : List Header}

/-- The email of a registration and its password are credited, whatever the case of the email. -/
theorem credited_of_presents (hacceptable : m.Acceptable) (hstands : Stands ms m)
    (hcolon : ':' ∉ m.submission.email.toList) {email : String}
    (hemail : Text.eqIgnoringCase (Text.trim m.submission.email) email = true)
    (hpresents : Auth.PresentsPair headers email m.submission.password) :
    Credited ms headers m := by
  rw [← hacceptable.email] at hemail
  have hat : '@' ∈ email.toList :=
    Text.mem_toList_of_eqIgnoringCase hemail (by decide) hacceptable.proper.at_mem
  have hne : email ≠ "" := by
    rintro rfl
    exact List.not_mem_nil hat
  have hcolon' : ':' ∉ email.toList := by
    intro hmem
    rw [Text.eqIgnoringCase_comm] at hemail
    have htrimmed := Text.mem_toList_of_eqIgnoringCase hemail (by decide) hmem
    rw [hacceptable.email, Text.toList_trim] at htrimmed
    exact hcolon (Text.trimWith_sublist.subset htrimmed)
  exact ⟨email, _, Auth.basicCredentials_of_presents hpresents hne hcolon', hstands, hemail, rfl⟩

/-- Nobody is credited by an email with blanks around it. -/
theorem not_credited_of_blanks (hacceptable : ∀ m ∈ ms, m.Acceptable) {email password : String}
    (hcredentials : Auth.basicCredentials headers = .ok (email, password))
    (hblanks : Text.trim email ≠ email) : ∀ m, ¬ Credited ms headers m := by
  rintro m ⟨email', password', hcredentials', hstands, hemail, -⟩
  obtain ⟨rfl, -⟩ := Prod.mk.inj (Except.ok.inj (hcredentials.symm.trans hcredentials'))
  have htrimmed := (hacceptable m hstands.mem).proper.email_trimmed
  exact hblanks (Text.trim_eq_self_of_eqIgnoringCase hemail htrimmed)

end Credited

/-- At every site that the service can come to, from 1970 on and as long as the end of a token can
be held in a timestamp, a registration that stands can log in by its email, unless that has a
colon. -/
theorem login_serve (engine : Auth.Engine) (scheme : Accounts.PasswordScheme) (issuer : String)
    {ttl : Int} (hfaithful : scheme.Faithful) (hpositive : 0 < ttl) :
    ∃ a, app ⟨engine, .memory scheme, issuer, .ofSeconds ttl⟩ = .ok a ∧
      ∀ (ms : List Registration) (site : Site (World Store)), Reached a scheme ms site →
        engine.CanSign site.world.keys → ∀ (clock : Instant), 0 ≤ clock.nanos →
          (clock.floorSecond.add (.ofSeconds ttl)).isTimestamp = true →
          ∀ m, Stands ms m → ':' ∉ m.submission.email.toList →
          ∀ r : Incoming, r.method = "GET" → r.path = "/v1/users/token" →
            LoginAnswer engine issuer ttl site clock m r.headers (site.run clock (a.serve r)).1 := by
  refine ⟨_, app_eq_ok _, fun ms site hreached hsigns clock hepoch hend m hstands hcolon r hmethod
    hpath => ?_⟩
  let s : Settings Store := ⟨engine, .memory scheme, issuer, .ofSeconds ttl⟩
  have hbackend : s.backend = .memory scheme := rfl
  have hacceptable := hreached.acceptable hbackend
  have hanswer := tokenAnswer_run hbackend hfaithful (hreached.records hbackend) rfl hpositive
    hsigns hepoch hend hmethod hpath
  constructor
  · intro email hemail hpresents
    exact hanswer.granted m
      (credited_of_presents (hacceptable m hstands.mem) hstands hcolon hemail hpresents)
  · intro hblanks hpresents
    have hne : m.submission.email ≠ "" := by
      intro hempty
      rw [hempty] at hblanks
      exact hblanks rfl
    exact hanswer.refused (not_credited_of_blanks hacceptable
      (Auth.basicCredentials_of_presents hpresents hne hcolon) hblanks)

/-! ### Clients -/

/-- A request for a token as a client sends it. -/
def login (email password : String) : Incoming :=
  ⟨"GET", "/v1/users/token", [⟨"Authorization", Octets.ofText ("Basic " ++
    String.ofList (Base64.encode Base64.standard (Octets.ofText (email ++ ":" ++ password))))⟩],
    [], none⟩

theorem presentsPair_login (email password : String) :
    Auth.PresentsPair (login email password).headers email password :=
  Auth.firstHeader?_authorization _

theorem login_serve_adaSite :
    Accounts.PasswordScheme.plain.Faithful ∧ (0 : Int) < 3600 ∧
      ∃ a, app ⟨.sample (some "accounts"), .memory .plain, "accounts", .ofSeconds 3600⟩ = .ok a ∧
        ∃ m, m.submission = submissionOf "ada@example.org" "secret" ∧ Reached a .plain [m] adaSite ∧
          (Auth.Engine.sample (some "accounts")).CanSign adaSite.world.keys ∧
          0 ≤ (Instant.ofSeconds 1700000000).nanos ∧
          ((Instant.ofSeconds 1700000000).floorSecond.add (.ofSeconds 3600)).isTimestamp = true ∧
          Stands [m] m ∧ ':' ∉ m.submission.email.toList ∧
          (login "ADA@example.org" "secret").method = "GET" ∧
          (login "ADA@example.org" "secret").path = "/v1/users/token" ∧
          Text.eqIgnoringCase (Text.trim m.submission.email) "ADA@example.org" = true ∧
          ∃ token, (adaSite.run (.ofSeconds 1700000000)
              (a.serve (login "ADA@example.org" "secret"))).1 =
              .ok (shown (.record [("token", .text token)]) .ok) ∧
            Accepted (.sample (some "accounts")) adaSite.world.keys token
              (claimsOf m.user "accounts" (.ofSeconds 1700000000) 3600) := by
  have hpositive : (0 : Int) < 3600 := by decide
  obtain ⟨a, ha, h⟩ := login_serve (.sample (some "accounts")) .plain "accounts"
    Accounts.PasswordScheme.faithful_plain hpositive
  have hreached := reached_adaSite a
  have hsigns : (Auth.Engine.sample (some "accounts")).CanSign adaSite.world.keys :=
    canSign_sample _
  have hstands : Stands [registrationAt emptySite (submissionOf "ada@example.org" "secret")]
      (registrationAt emptySite (submissionOf "ada@example.org" "secret")) :=
    ⟨[], [], rfl, fun _ hm => (List.not_mem_nil hm).elim⟩
  have hcolon : ':' ∉ (registrationAt emptySite
      (submissionOf "ada@example.org" "secret")).submission.email.toList := by decide
  have hemail : Text.eqIgnoringCase (Text.trim (registrationAt emptySite
      (submissionOf "ada@example.org" "secret")).submission.email) "ADA@example.org" = true := by
    decide
  have hanswer := h _ _ hreached hsigns (.ofSeconds 1700000000) (by decide) (by decide) _ hstands
    hcolon (login "ADA@example.org" "secret") rfl rfl
  exact ⟨Accounts.PasswordScheme.faithful_plain, hpositive, a, ha, _, rfl, hreached, hsigns,
    by decide, by decide, hstands, hcolon, rfl, rfl, hemail,
    hanswer.granted _ hemail (presentsPair_login _ _)⟩

/-! ### Who cannot log in as submitted -/

/-- Whoever is registered alone is refused if something else than the email is read from what was
submitted. -/
theorem unauthorized_of_alone {s : Settings Store} (hbackend : s.backend = .memory .plain)
    (httl : s.tokenTtl = .ofSeconds 3600) (hsigns : s.engine.CanSign emptySite.world.keys)
    {email name password : String} (hvalid : (submissionOf email "secret").validate = .ok ())
    (hcredentials : Auth.basicCredentials (login email "secret").headers = .ok (name, password))
    (hother : Text.eqIgnoringCase (Text.trim email) name = false) :
    ∃ response, ((submitted emptySite (submissionOf email "secret")).run (.ofSeconds 1700000000)
      ((application s).serve (login email "secret"))).1 = .ok response ∧
      response.status = .unauthorized := by
  have hreached := reached_submitted (application s) hvalid
  have hanswer := tokenAnswer_run hbackend Accounts.PasswordScheme.faithful_plain
    (hreached.records hbackend) httl (by decide) hsigns
    (show 0 ≤ (Instant.ofSeconds 1700000000).nanos by decide) (by decide)
    (show (login email "secret").method = "GET" from rfl) rfl
  obtain ⟨message, -, hrefused⟩ := hanswer.refused (by
    rintro m ⟨email', password', hcredentials', hstands, hemail, -⟩
    obtain ⟨rfl, -⟩ := Prod.mk.inj (Except.ok.inj (hcredentials.symm.trans hcredentials'))
    obtain rfl := List.mem_singleton.1 hstands.mem
    rw [(hreached.acceptable hbackend _ (List.mem_singleton_self _)).email] at hemail
    exact absurd (hother.symm.trans hemail) (by decide))
  exact ⟨_, hrefused, rfl⟩

/-- Not every account can log in exactly as it was submitted: not with a blank in front of the
email, and not with a colon in it, where the email is taken to end. -/
theorem not_login_serve :
    ∃ a, app ⟨.sample (some "accounts"), .memory .plain, "accounts", .ofSeconds 3600⟩ = .ok a ∧
      ∀ email ∈ [" ada@example.org", "ada:l@example.org"],
        let m := registrationAt emptySite (submissionOf email "secret")
        let site := submitted emptySite (submissionOf email "secret")
        Reached a .plain [m] site ∧
          (Auth.Engine.sample (some "accounts")).CanSign site.world.keys ∧
          Auth.PresentsPair (login email "secret").headers m.submission.email
            m.submission.password ∧
          ∃ response, (site.run (.ofSeconds 1700000000) (a.serve (login email "secret"))).1 =
              .ok response ∧
            response.status = .unauthorized := by
  let s : Settings Store := ⟨.sample (some "accounts"), .memory .plain, "accounts", .ofSeconds 3600⟩
  refine ⟨application s, app_eq_ok s, fun email hemail => ?_⟩
  have hvalid : (submissionOf email "secret").validate = .ok () := by
    revert hemail email
    decide
  have hreached := reached_submitted (application s) hvalid
  refine ⟨hreached, canSign_sample _, presentsPair_login _ _, ?_⟩
  simp only [List.mem_cons, List.not_mem_nil, or_false] at hemail
  rcases hemail with rfl | rfl
  · exact unauthorized_of_alone rfl rfl (canSign_sample _) hvalid
      (Auth.basicCredentials_of_presents (presentsPair_login _ _) (by decide) (by decide))
      (by decide)
  -- The octets are those of another pair, whose name is what stands in front of the colon.
  · have hpresents : Auth.PresentsPair (login "ada:l@example.org" "secret").headers "ada"
        "l@example.org:secret" := presentsPair_login "ada:l@example.org" "secret"
    exact unauthorized_of_alone rfl rfl (canSign_sample _) hvalid
      (Auth.basicCredentials_of_presents hpresents (by decide) (by decide)) (by decide)

end AccountService.Api
