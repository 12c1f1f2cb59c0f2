import AccountService.Proofs.Auth.Engine

/-!
# Live tokens round-trip

A token that an engine gives out is taken back by every engine of the same algorithm that finds
the same key under the name in the token, as long as the token has not ended: it yields the
claims that were signed, unless the engine expects another issuer.

## Main statements

* `Auth.Engine.accept_generate_stages` — what the stages of acceptance see of a written token
* `Auth.Engine.accept_generate` — of a live token nothing but the issuer is left to check
* `Auth.Engine.eq_of_validate_generate` — a written token never yields other claims
* `Auth.Engine.validate_generate` — a live token yields the claims that were signed
-/

namespace AccountService

/-- Base 64 writes no dots, so a token falls apart where it was joined. -/
theorem Token.split?_join (header payload : Json) (signature : Octets) :
    split? (join (encodeJson header) (encodeJson payload)
        (Base64.encode Base64.urlSafe signature)) =
      some ⟨encodeJson header, encodeJson payload, Base64.encode Base64.urlSafe signature⟩ :=
  split?_eq_some_iff.2 ⟨rfl, dot_notMem_encodeJson _, dot_notMem_encodeJson _,
    Base64.dot_notMem_encode _⟩

namespace Auth

/-- A set of roles is the set of its list. -/
theorem RoleSet.ofList_toList (rs : RoleSet) : RoleSet.ofList rs.toList = rs :=
  RoleSet.ext fun r => RoleSet.mem_ofList r rs.toList

namespace Engine

/-- The payload that claims are written as. -/
def payloadOf (c : Claims) : Token.Payload :=
  ⟨c.subject, some c.issuer, c.issuedAt.seconds, c.expiresAt.seconds, c.roles.toList⟩

/-- The header that an engine writes passes in every engine of its algorithm. -/
theorem checkHeader_headerOf {e e' : Engine} (halgorithm : e'.algorithm = e.algorithm) :
    e'.checkHeader e.headerOf =
      .ok (e.activeKid, Token.headerNodes e.algorithm.name e.activeKid) := by
  refine checkHeader_eq_ok_iff.2
    ⟨Octets.ofText (Token.headerJson e.algorithm.name e.activeKid).render,
      Base64.decode?_encode Base64.lawful_urlSafe _, Token.headerMembers?_headerJson _ _, ?_, ?_⟩
  · rw [Token.last?_kid_headerNodes, Option.bind_some, Json.text?_node]
  · rw [Token.last?_alg_headerNodes, Option.bind_some, Json.text?_node, halgorithm]

/-- The claims that were written are rebuilt. -/
theorem rebuild_payloadOf {c : Claims} (hform : c.WellFormed) (hc : c.Representable) :
    rebuild (payloadOf c) = .ok c := by
  have hrebuilt : (⟨c.subject, c.issuer, .ofSeconds c.issuedAt.seconds,
      .ofSeconds c.expiresAt.seconds, .ofList c.roles.toList⟩ : Claims) = c := by
    rw [Instant.ofSeconds_seconds hform.issuedAt, Instant.ofSeconds_seconds hform.expiresAt,
      RoleSet.ofList_toList]
  exact rebuild_eq_ok_iff.2 ⟨hrebuilt.symm, hc, hform⟩

section Generated

variable {e e' : Engine} {keys keys' : KeyStore} {salt : Octets} {c : Claims} {token : String}
  {now : Instant}

/-- What the stages of acceptance see of a written token: its segments, the key that signed it,
and the claims that were signed. -/
theorem accept_generate_stages (hc : c.Representable)
    (hsalt : e.scheme.padding = .salted → salt.length = e.scheme.digest.size)
    (hgenerate : e.generate keys salt c = .ok token) (halgorithm : e'.algorithm = e.algorithm)
    (hkey : keys'.get? e.activeKid = keys.get? e.activeKid) :
    ∃ payload signature key, Token.split? token = some ⟨e.headerOf, payload, signature⟩ ∧
      keys'.get? e.activeKid = some key ∧
      e'.openPayload key.public_ (Token.headerNodes e.algorithm.name e.activeKid)
        ⟨e.headerOf, payload, signature⟩ = .ok (payloadOf c, .ofEnd c.expiresAt.seconds) := by
  obtain ⟨_, key, signature, hbound, hsign, rfl⟩ := generate_eq_ok_iff.1 hgenerate
  -- An algorithm has only one scheme.
  have hscheme : e'.scheme = e.scheme := by
    have h := e'.scheme_eq
    rw [halgorithm, e.scheme_eq] at h
    exact (Option.some.inj h).symm
  have hverify : Signature.verify e'.scheme key.public_
      (Token.signingInput e.headerOf (Token.encodeJson (Token.payloadJson c))) signature =
        true := by
    rw [hscheme]
    exact Signature.verify_sign hsalt hsign
  refine ⟨Token.encodeJson (Token.payloadJson c), Base64.encode Base64.urlSafe signature, key,
    Token.split?_join _ _ _, hkey.trans hbound,
    openPayload_eq_ok_iff.2 ⟨?_, ⟨signature, ?_, ?_⟩,
      Octets.ofText (Token.payloadJson c).render, ?_, ?_⟩⟩
  · exact Token.isTypedHeader_headerJson _ _
  · exact Base64.decode?_encode Base64.lawful_urlSafe _
  · exact hverify
  · exact Base64.decode?_encode Base64.lawful_urlSafe _
  · exact Token.readPayload_payloadJson (Instant.seconds_bounds hc.issuedAt)
      (Instant.seconds_bounds hc.expiresAt)

/-- Of a live token nothing but the issuer is left to check, and it yields the name of the key
that signed it and the claims that were signed. -/
theorem accept_generate (hc : c.Representable)
    (hsalt : e.scheme.padding = .salted → salt.length = e.scheme.digest.size)
    (hgenerate : e.generate keys salt c = .ok token) (halgorithm : e'.algorithm = e.algorithm)
    (hkey : keys'.get? e.activeKid = keys.get? e.activeKid)
    (hleeway : (e'.leeway : Int) ≤ now.seconds)
    (hlive : now.seconds ≤ c.expiresAt.seconds + e'.leeway) :
    e'.accept keys' now token =
      match e'.checkIssuer (payloadOf c) with
      | .error err => .error err
      | .ok () => .ok (e.activeKid, c) := by
  obtain ⟨payload, signature, key, hsplit, hbound, hopen⟩ :=
    accept_generate_stages hc hsalt hgenerate halgorithm hkey
  have hheader := checkHeader_headerOf halgorithm
  -- The clock has passed the leeway, so an end that is still ahead is not before 1970.
  have htime : e'.checkTime now (.ofEnd c.expiresAt.seconds) = .ok () :=
    checkTime_eq_ok_iff.2 ⟨_, if_neg (by omega), hlive⟩
  have hrebuild := rebuild_payloadOf (generate_eq_ok_iff.1 hgenerate).1 hc
  simp only [accept, hsplit, hheader, KeyStore.lookup_eq_ok_iff.2 hbound, acceptUnder, hopen,
    htime, hrebuild]
  cases e'.checkIssuer (payloadOf c) <;> rfl

/-- Whoever accepts a written token, at whatever time and under whatever keys, finds the claims in
it that were signed. -/
theorem eq_of_validate_generate (hc : c.Representable)
    (hgenerate : e.generate keys salt c = .ok token) {c' : Claims}
    (h : e'.validate keys' now token = .ok c') : c' = c := by
  obtain ⟨hform, _, signature, -, -, rfl⟩ := generate_eq_ok_iff.1 hgenerate
  obtain ⟨kid, haccept⟩ := validate_eq_ok_iff.1 h
  obtain ⟨_, _, _, _, _, p, r, hsplit, -, -, hopen, -, -, hrebuild⟩ := accept_eq_ok_iff.1 haccept
  rw [headerOf, Token.split?_join] at hsplit
  obtain ⟨-, rfl, -⟩ := Token.Parts.mk.inj (Option.some.inj hsplit)
  obtain ⟨-, -, octets, hdecode, hread⟩ := openPayload_eq_ok_iff.1 hopen
  -- The payload is the one that was written, and it is read in one way only.
  obtain rfl := Option.some.inj
    ((Base64.decode?_encode Base64.lawful_urlSafe _).symm.trans hdecode)
  have hwritten := Token.readPayload_payloadJson (Instant.seconds_bounds hc.issuedAt)
    (Instant.seconds_bounds hc.expiresAt)
  obtain ⟨rfl, -⟩ := Prod.mk.inj (Option.some.inj (hread.symm.trans hwritten))
  exact Except.ok.inj (hrebuild.symm.trans (rebuild_payloadOf hform hc))

/-- A live token yields the claims that were signed, at every engine of the same algorithm that
finds the same key under its name and expects no issuer or the one that was signed; at an engine
that expects another issuer it is refused for its issuer. -/
theorem validate_generate (hc : c.Representable)
    (hsalt : e.scheme.padding = .salted → salt.length = e.scheme.digest.size)
    (hgenerate : e.generate keys salt c = .ok token) (halgorithm : e'.algorithm = e.algorithm)
    (hkey : keys'.get? e.activeKid = keys.get? e.activeKid)
    (hleeway : (e'.leeway : Int) ≤ now.seconds)
    (hlive : now.seconds ≤ c.expiresAt.seconds + e'.leeway) :
    e'.validate keys' now token =
      if e'.issuer = none ∨ e'.issuer = some c.issuer then .ok c
      else .error (.invalidIssuer "InvalidIssuer") := by
  rw [validate, accept_generate hc hsalt hgenerate halgorithm hkey hleeway hlive]
  cases hissuer : e'.issuer with
  | none => simp [checkIssuer, hissuer, Except.map]
  | some expected =>
    by_cases hsame : c.issuer = expected
    · simp [checkIssuer, hissuer, payloadOf, hsame, Except.map]
    · simp [checkIssuer, hissuer, payloadOf, hsame, Ne.symm hsame, Except.map]

end Generated

/-- Claims of an hour, with a subject and a role that JSON has to escape. -/
def sampleClaims : Claims where
  subject := "\"\\\n"
  issuer := "accounts"
  issuedAt := .ofSeconds 1700000000
  expiresAt := .ofSeconds 1700003600
  roles := .ofList ["ADMIN", "\x00"]

theorem wellFormed_sampleClaims : sampleClaims.WellFormed := by
  constructor <;> decide

theorem representable_sampleClaims : sampleClaims.Representable := by
  constructor <;> decide

theorem exists_generate_sample :
    ∃ token, (sample none).generate sampleKeys [] sampleClaims = .ok token :=
  exists_generate [] get?_sampleKeys Rsa.genuine_sampleKey Rsa.canSign_sampleKey
    wellFormed_sampleClaims

theorem validate_generate_sample :
    ∃ token, (sample none).generate sampleKeys [] sampleClaims = .ok token ∧
      (sample (some "accounts")).validate sampleKeys (.ofSeconds 1700003660) token =
        .ok sampleClaims := by
  obtain ⟨token, htoken⟩ := exists_generate_sample
  have hvalidate : (sample (some "accounts")).validate sampleKeys (.ofSeconds 1700003660) token =
      if some "accounts" = none ∨ some "accounts" = some sampleClaims.issuer then .ok sampleClaims
      else .error (.invalidIssuer "InvalidIssuer") :=
    validate_generate representable_sampleClaims (fun h => by cases h) htoken rfl rfl
      (by decide) (by decide)
  exact ⟨token, htoken, hvalidate.trans (if_pos (.inr rfl))⟩

/-- The token of the sample claims is accepted by an engine that expects their issuer. -/
theorem exists_accept_sample :
    ∃ token, (sample (some "accounts")).accept sampleKeys (.ofSeconds 1700003660) token =
      .ok ("key", sampleClaims) := by
  obtain ⟨token, htoken⟩ := exists_generate_sample
  refine ⟨token, ?_⟩
  have haccept : (sample (some "accounts")).accept sampleKeys (.ofSeconds 1700003660) token =
      match (sample (some "accounts")).checkIssuer (payloadOf sampleClaims) with
      | .error err => .error err
      | .ok () => .ok ("key", sampleClaims) :=
    accept_generate representable_sampleClaims (fun h => by cases h) htoken rfl rfl
      (by decide) (by decide)
  exact haccept

end Engine

end Auth

end AccountService
