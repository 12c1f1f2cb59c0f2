import AccountService.Proofs.Auth.RoundTrip

/-!
# Tokens that have ended

Once the leeway after its end is over, a token is refused for its end, whatever issuer is expected.
It is refused as expired unless it ended before 1970. Claims that end then are signed like all
others, but the reader of the registered claims knows no time before 1970: to it their token names
no end, and the token is refused as malformed.

## Main statements

* `Auth.Engine.accept_generate_of_ended` — how a token is refused that has ended
* `Auth.Engine.expired_generate_iff` — which tokens of an engine are reported as expired
* `Auth.Engine.not_expired_before_1970` — a token that has ended and is not reported as expired
-/

namespace AccountService.Auth.Engine

section Generated

variable {e e' : Engine} {keys keys' : KeyStore} {salt : Octets} {c : Claims} {token : String}
  {now : Instant}

/-- Why a token is refused that ended with the second `s`. -/
def endFault (s : Int) : Error :=
  if s < 0 then .malformedToken "Missing required claim: exp" else .expired

theorem endFault_eq_expired_iff {s : Int} : endFault s = .expired ↔ 0 ≤ s := by
  rw [endFault]
  split <;> simp <;> omega

/-- An end after which the leeway is over is refused. -/
theorem checkTime_of_ended {s : Int} (hended : s + e.leeway < now.seconds) :
    e.checkTime now (.ofEnd s) = .error (endFault s) := by
  rw [Token.Registered.ofEnd, endFault]
  split
  · rfl
  · rw [checkTime, if_pos (by omega)]

/-- A token that has ended, and for which the leeway is over, is refused for that, whatever issuer
is expected. -/
theorem accept_generate_of_ended (hc : c.Representable)
    (hsalt : e.scheme.padding = .salted → salt.length = e.scheme.digest.size)
    (hgenerate : e.generate keys salt c = .ok token) (halgorithm : e'.algorithm = e.algorithm)
    (hkey : keys'.get? e.activeKid = keys.get? e.activeKid)
    (hended : c.expiresAt.seconds + e'.leeway < now.seconds) :
    e'.accept keys' now token = .error (endFault c.expiresAt.seconds) := by
  obtain ⟨payload, signature, key, hsplit, hbound, hopen⟩ :=
    accept_generate_stages hc hsalt hgenerate halgorithm hkey
  have hheader := checkHeader_headerOf halgorithm
  have htime := checkTime_of_ended hended
  simp only [accept, hsplit, hheader, KeyStore.lookup_eq_ok_iff.2 hbound, acceptUnder, hopen, htime]

/-- A token of an engine, as long as its key is registered, is reported as expired exactly if it did
not end before 1970 and the leeway after its end is over, whatever issuer is expected. A token that
ended before 1970 is always refused, as one that names no end. -/
theorem expired_generate_iff (hc : c.Representable)
    (hsalt : e.scheme.padding = .salted → salt.length = e.scheme.digest.size)
    (hgenerate : e.generate keys salt c = .ok token)
    (hkey : keys'.get? e.activeKid = keys.get? e.activeKid)
    (hleeway : (e.leeway : Int) ≤ now.seconds) :
    (e.validate keys' now token = .error .expired ↔
      0 ≤ c.expiresAt.seconds ∧ c.expiresAt.seconds + e.leeway < now.seconds) ∧
    (c.expiresAt.seconds < 0 →
      e.validate keys' now token = .error (.malformedToken "Missing required claim: exp")) := by
  have hfault (hended : c.expiresAt.seconds + e.leeway < now.seconds) :
      e.validate keys' now token = .error (endFault c.expiresAt.seconds) := by
    rw [validate, accept_generate_of_ended hc hsalt hgenerate rfl hkey hended]
    rfl
  constructor
  · by_cases hended : c.expiresAt.seconds + e.leeway < now.seconds
    · rw [hfault hended, Except.error.injEq, endFault_eq_expired_iff]
      exact (and_iff_left hended).symm
    · -- A token that still holds fails at most for its issuer.
      refine iff_of_false (fun hexpired => ?_) fun h => hended h.2
      rw [validate, accept_generate hc hsalt hgenerate rfl hkey hleeway (by omega), checkIssuer]
        at hexpired
      split at hexpired
      · next hissuer =>
        split at hissuer
        · split at hissuer <;> cases hissuer
          cases hexpired
        · cases hissuer
      · cases hexpired
  · intro hbefore
    -- The clock has passed the leeway, so this end lies further back than the leeway.
    rw [hfault (by omega), endFault, if_pos hbefore]

end Generated

/-- The sample claims are reported as expired once their hour and a minute of leeway are over, also
where another issuer is expected. -/
theorem expired_generate_iff_sample :
    ∃ token, (sample (some "others")).generate sampleKeys [] sampleClaims = .ok token ∧
      (sample (some "others")).validate sampleKeys (.ofSeconds 1700003661) token =
        .error .expired := by
  obtain ⟨token, htoken⟩ := exists_generate [] (e := sample (some "others")) get?_sampleKeys
    Rsa.genuine_sampleKey Rsa.canSign_sampleKey wellFormed_sampleClaims
  have hleeway : ((sample (some "others")).leeway : Int) ≤ (Instant.ofSeconds 1700003661).seconds := by
    decide
  have hexpired := expired_generate_iff representable_sampleClaims (fun h => by cases h) htoken rfl
    hleeway
  exact ⟨token, htoken, hexpired.1.2 (by decide)⟩

/-- Claims of a minute in the last hour of 1969. -/
def earlyClaims : Claims where
  subject := "user-1"
  issuer := "accounts"
  issuedAt := .ofSeconds (-100)
  expiresAt := .ofSeconds (-40)
  roles := .ofList ["USER"]

/-- Not every token that has ended is reported as expired: one that ended before 1970 is refused as
malformed, by the engine that signed it and with its key registered. -/
theorem not_expired_before_1970 :
    ∃ token, (sample none).generate sampleKeys [] earlyClaims = .ok token ∧
      earlyClaims.expiresAt.seconds + (sample none).leeway < (Instant.ofSeconds 1700000000).seconds ∧
      (sample none).validate sampleKeys (.ofSeconds 1700000000) token =
        .error (.malformedToken "Missing required claim: exp") := by
  have hform : earlyClaims.WellFormed := by constructor <;> decide
  have hrepresentable : earlyClaims.Representable := by constructor <;> decide
  have hended : earlyClaims.expiresAt.seconds + (sample none).leeway <
      (Instant.ofSeconds 1700000000).seconds := by decide
  obtain ⟨token, htoken⟩ := exists_generate [] (e := sample none) get?_sampleKeys
    Rsa.genuine_sampleKey Rsa.canSign_sampleKey hform
  have haccept : (sample none).accept sampleKeys (.ofSeconds 1700000000) token =
      .error (endFault earlyClaims.expiresAt.seconds) :=
    accept_generate_of_ended hrepresentable (fun h => by cases h) htoken rfl rfl hended
  refine ⟨token, htoken, hended, ?_⟩
  rw [validate, haccept]
  rfl

end AccountService.Auth.Engine
