import AccountService.Auth.Engine
import AccountService.Proofs.Auth.Claims
import AccountService.Proofs.Auth.Token
import AccountService.Proofs.Crypto.Signature

/-!
# What an engine requires

For each stage of an engine, the exact conditions under which it goes on, and with what. Each
stage is stated once, and the whole is put together from the stages, so that a change of one
stage leaves the others alone.

## Main statements

* `Auth.Engine.generate_eq_ok_iff` — when claims are signed, and into which token
* `Auth.Engine.exists_generate` — a genuine key that may sign signs all well-formed claims
* `Auth.Engine.checkHeader_eq_ok_iff`, `Auth.Engine.openPayload_eq_ok_iff`,
  `Auth.Engine.checkTime_eq_ok_iff`, `Auth.Engine.checkIssuer_eq_ok_iff` — the stages of
  acceptance
* `Auth.Engine.accept_eq_ok_iff` — a token is accepted exactly if every stage lets it pass
-/

namespace AccountService.Auth

open Json (Node)

namespace Engine

variable {e : Engine} {keys : KeyStore}

/-! ### Signing -/

/-- The header segment that an engine writes. -/
def headerOf (e : Engine) : List Char :=
  Token.encodeJson (Token.headerJson e.algorithm.name e.activeKid)

/-- Claims are signed exactly if they are well formed and the active key signs, and the token
consists of the written header, the written claims and the signature of both. -/
theorem generate_eq_ok_iff {salt : Octets} {c : Claims} {token : String} :
    e.generate keys salt c = .ok token ↔
      c.WellFormed ∧ ∃ key signature,
        keys.get? e.activeKid = some key ∧
        Signature.sign e.scheme key salt
          (Token.signingInput e.headerOf (Token.encodeJson (Token.payloadJson c))) =
            .ok signature ∧
        token = Token.join e.headerOf (Token.encodeJson (Token.payloadJson c))
          (Base64.encode Base64.urlSafe signature) := by
  constructor
  · intro h
    -- Every branch but the innermost is an error.
    rw [generate] at h
    split at h
    · cases h
    · next hcheck =>
      split at h
      · cases h
      · next key hlookup =>
        simp only at h
        split at h
        · cases h
        · next signature hsign =>
          exact ⟨Claims.check_eq_ok_iff.1 hcheck, key, signature,
            KeyStore.lookup_eq_ok_iff.1 hlookup, hsign, (Except.ok.inj h).symm⟩
  · rintro ⟨hform, key, signature, hkey, hsign, rfl⟩
    rw [headerOf] at hsign
    simp only [generate, Claims.check_eq_ok_iff.2 hform, KeyStore.lookup_eq_ok_iff.2 hkey, hsign]
    rfl

/-- With a genuine key that may sign, an engine signs all well-formed claims. -/
theorem exists_generate {key : Rsa.KeyPair} (salt : Octets) {c : Claims}
    (hkey : keys.get? e.activeKid = some key) (hgenuine : key.Genuine)
    (hcan : key.canSign = true) (hc : c.WellFormed) :
    ∃ token, e.generate keys salt c = .ok token := by
  obtain ⟨signature, hsign⟩ := Signature.exists_sign e.scheme salt
    (Token.signingInput e.headerOf (Token.encodeJson (Token.payloadJson c))) hgenuine hcan
  exact ⟨_, generate_eq_ok_iff.2 ⟨hc, key, signature, hkey, hsign, rfl⟩⟩

/-! ### Stages of acceptance -/

theorem declaredKid_eq_ok_iff {members : List (String × Node)} {kid : String} :
    declaredKid members = .ok kid ↔
      (Json.last? "kid" members).bind Node.text? = some kid := by
  rw [declaredKid]
  split
  · next h => simp [h]
  · next v h =>
    rw [h, Option.bind_some]
    split
    · next text htext => simp [htext]
    · next htext => simp [htext]

theorem checkAlgorithm_eq_ok_iff {members : List (String × Node)} :
    e.checkAlgorithm members = .ok () ↔
      (Json.last? "alg" members).bind Node.text? = some e.algorithm.name := by
  rw [checkAlgorithm]
  constructor
  · intro h
    split at h
    · cases h
    · next declared hdeclared =>
      split at h
      · cases h
      · next algorithm hname =>
        split at h
        · next halgorithm =>
          rw [hdeclared, ← Algorithm.eq_of_ofName? hname, halgorithm]
        · cases h
  · intro h
    simp only [h, Algorithm.ofName?_name, if_true]

/-- The header is accepted exactly if it is JSON in base 64 whose last `kid` is a text and whose
last `alg` is the name of the algorithm. -/
theorem checkHeader_eq_ok_iff {header : List Char} {kid : String}
    {members : List (String × Node)} :
    e.checkHeader header = .ok (kid, members) ↔
      ∃ octets, Base64.decode? Base64.urlSafe header = some octets ∧
        Token.headerMembers? octets = some members ∧
        (Json.last? "kid" members).bind Node.text? = some kid ∧
        (Json.last? "alg" members).bind Node.text? = some e.algorithm.name := by
  constructor
  · intro h
    -- Every branch but the innermost is an error.
    rw [checkHeader] at h
    split at h
    · cases h
    · next octets hdecode =>
      split at h
      · cases h
      · next members' hmembers =>
        split at h
        · cases h
        · next kid' hkid =>
          split at h
          · cases h
          · next halgorithm =>
            obtain ⟨rfl, rfl⟩ := Prod.mk.inj (Except.ok.inj h)
            exact ⟨octets, hdecode, hmembers, declaredKid_eq_ok_iff.1 hkid,
              checkAlgorithm_eq_ok_iff.1 halgorithm⟩
  · rintro ⟨octets, hdecode, hmembers, hkid, halgorithm⟩
    simp only [checkHeader, hdecode, hmembers, declaredKid_eq_ok_iff.2 hkid,
      checkAlgorithm_eq_ok_iff.2 halgorithm]

/-- The payload is opened exactly if the header has the right types, the signature is genuine,
and the payload is JSON in base 64 that reads as claims. -/
theorem openPayload_eq_ok_iff {key : Rsa.PublicKey} {members : List (String × Node)}
    {header payload segment : List Char} {p : Token.Payload} {r : Token.Registered} :
    e.openPayload key members ⟨header, payload, segment⟩ = .ok (p, r) ↔
      Token.isTypedHeader members = true ∧
      (∃ signature, Base64.decode? Base64.urlSafe segment = some signature ∧
        Signature.verify e.scheme key (Token.signingInput header payload) signature = true) ∧
      ∃ octets, Base64.decode? Base64.urlSafe payload = some octets ∧
        Token.readPayload octets = some (p, r) := by
  constructor
  · intro h
    rw [openPayload] at h
    split at h
    · cases h
    · next htyped =>
      split at h
      · cases h
      · next signature hsignature =>
        split at h
        · cases h
        · next hverify =>
          split at h
          · cases h
          · next octets hoctets =>
            split at h
            · cases h
            · next pr hread =>
              obtain rfl := Except.ok.inj h
              exact ⟨by simpa using htyped, ⟨signature, hsignature, by simpa using hverify⟩,
                octets, hoctets, hread⟩
  · rintro ⟨htyped, ⟨signature, hsignature, hverify⟩, octets, hoctets, hread⟩
    simp [openPayload, htyped, hsignature, hverify, hoctets, hread]

/-- The time is accepted exactly if an end is named that lies at most the leeway back. -/
theorem checkTime_eq_ok_iff {now : Instant} {r : Token.Registered} :
    e.checkTime now r = .ok () ↔ ∃ s, r = .endsAt s ∧ now.seconds ≤ s + e.leeway := by
  cases r with
  | unreadable => simp [checkTime]
  | endless => simp [checkTime]
  | endsAt s =>
    rw [checkTime]
    split
    · simp only [reduceCtorEq, Token.Registered.endsAt.injEq, exists_eq_left', false_iff]
      omega
    · simp only [Token.Registered.endsAt.injEq, exists_eq_left', true_iff]
      omega

/-- The issuer is accepted exactly if none is expected, none is named, or both are the same. -/
theorem checkIssuer_eq_ok_iff {p : Token.Payload} :
    e.checkIssuer p = .ok () ↔
      ∀ expected ∈ e.issuer, ∀ issuer ∈ p.issuer, issuer = expected := by
  rw [checkIssuer]
  split
  · next expected issuer he hp =>
    rw [he, hp]
    split
    · next h => simp [h]
    · next h => simpa using h
  · next h =>
    refine iff_of_true rfl fun expected he issuer hp => ?_
    exact absurd hp (h expected issuer he)

/-! ### Acceptance as a whole -/

/-- A token is accepted exactly if every stage lets it pass. -/
theorem accept_eq_ok_iff {now : Instant} {token kid : String} {c : Claims} :
    e.accept keys now token = .ok (kid, c) ↔
      ∃ header payload segment members key p r,
        Token.split? token = some ⟨header, payload, segment⟩ ∧
        e.checkHeader header = .ok (kid, members) ∧ keys.get? kid = some key ∧
        e.openPayload key.public_ members ⟨header, payload, segment⟩ = .ok (p, r) ∧
        e.checkTime now r = .ok () ∧ e.checkIssuer p = .ok () ∧ rebuild p = .ok c := by
  constructor
  · intro h
    -- The stages come in the order of the statement, and each of them ends in an error or goes on.
    rw [accept] at h
    split at h
    · cases h
    · next t hsplit =>
      split at h
      · cases h
      · next kid' members hheader =>
        split at h
        · cases h
        · next key hlookup =>
          split at h
          · cases h
          · next c' haccept =>
            obtain ⟨rfl, rfl⟩ := Prod.mk.inj (Except.ok.inj h)
            rw [acceptUnder] at haccept
            split at haccept
            · cases haccept
            · next p r hopen =>
              split at haccept
              · cases haccept
              · next htime =>
                split at haccept
                · cases haccept
                · next hissuer =>
                  exact ⟨t.header, t.payload, t.signature, members, key, p, r, hsplit, hheader,
                    KeyStore.lookup_eq_ok_iff.1 hlookup, hopen, htime, hissuer, haccept⟩
  · rintro ⟨header, payload, segment, members, key, p, r, hsplit, hheader, hkey, hopen, htime,
      hissuer, hrebuild⟩
    simp only [accept, acceptUnder, hsplit, hheader, KeyStore.lookup_eq_ok_iff.2 hkey, hopen,
      htime, hissuer, hrebuild]

/-- What validation accepts is what acceptance accepts. -/
theorem validate_eq_ok_iff {now : Instant} {token : String} {c : Claims} :
    e.validate keys now token = .ok c ↔ ∃ kid, e.accept keys now token = .ok (kid, c) := by
  rw [validate]
  cases h : e.accept keys now token with
  | error err => simp [Except.map]
  | ok r =>
    obtain ⟨kid, c'⟩ := r
    simp [Except.map]

/-! ### A sample engine -/

/-- A store that binds a genuine key. -/
def sampleKeys : KeyStore := KeyStore.empty.insert "key" Rsa.sampleKey

/-- An engine that signs with the genuine key. -/
def sample (issuer : Option String) : Engine where
  activeKid := "key"
  algorithm := .rs256
  scheme := ⟨.fixed, .sha256⟩
  issuer := issuer
  leeway := 60
  scheme_eq := rfl

theorem get?_sampleKeys : sampleKeys.get? "key" = some Rsa.sampleKey := by
  rw [sampleKeys, KeyStore.get?_insert, if_pos rfl]

end Engine

end AccountService.Auth
