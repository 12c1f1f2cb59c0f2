import AccountService.Proofs.Auth.RoundTrip

/-!
# What an expected issuer is checked against

An engine that expects an issuer compares it with the issuer that a token names. A token that
names none is not compared with anything, so it is accepted whatever issuer is expected, and its
claims have an empty one.

## Main definitions

* `Token.OmitsIssuer` — a token names no issuer
* `Auth.Engine.expectingNone` — an engine with the expectation taken away

## Main statements

* `Auth.Engine.validate_of_expected` — the exact effect of an expected issuer
* `Auth.Engine.validate_anonymousToken` — a token that names no issuer passes where one is
  expected
-/

namespace AccountService

open Json (Node)

/-- A token whose payload is a record without an issuer. -/
def Token.OmitsIssuer (token : String) : Prop :=
  ∃ t octets node members, Token.split? token = some t ∧
    Base64.decode? Base64.urlSafe t.payload = some octets ∧ Node.parse? octets = some node ∧
    node.members? = some members ∧ "iss" ∉ members.map (·.1)

namespace Auth.Engine

/-- An engine with the expectation of an issuer taken away. -/
def expectingNone (e : Engine) : Engine := { e with issuer := none }

variable {e : Engine} {keys : KeyStore} {now : Instant} {token kid : String} {c : Claims}

/-- The expectation of an issuer has no part in any other stage of acceptance. -/
theorem accept_eq_ok_iff_expectingNone :
    e.accept keys now token = .ok (kid, c) ↔
      ∃ t octets p s, e.expectingNone.accept keys now token = .ok (kid, c) ∧
        Token.split? token = some t ∧
        Base64.decode? Base64.urlSafe t.payload = some octets ∧
        Token.readPayload octets = some (p, .endsAt s) ∧ c.issuer = p.issuer.getD "" ∧
        ∀ expected ∈ e.issuer, ∀ issuer ∈ p.issuer, issuer = expected := by
  constructor
  · intro h
    obtain ⟨header, payload, segment, members, key, p, r, hsplit, hheader, hkey, hopen, htime,
      hissuer, hrebuild⟩ := accept_eq_ok_iff.1 h
    obtain ⟨_, _, octets, hdecode, hread⟩ := openPayload_eq_ok_iff.1 hopen
    obtain ⟨s, rfl, _⟩ := checkTime_eq_ok_iff.1 htime
    -- No other stage looks at the issuer that is expected.
    have hnone : e.expectingNone.checkIssuer p = .ok () := rfl
    refine ⟨⟨header, payload, segment⟩, octets, p, s, accept_eq_ok_iff.2 ⟨header, payload,
      segment, members, key, p, .endsAt s, hsplit, hheader, hkey, hopen, htime, hnone, hrebuild⟩,
      hsplit, hdecode, hread, ?_, checkIssuer_eq_ok_iff.1 hissuer⟩
    rw [(rebuild_eq_ok_iff.1 hrebuild).1]
  · rintro ⟨t, octets, p, s, h, hsplit, hdecode, hread, _, hissuer⟩
    obtain ⟨header, payload, segment, members, key, p', r, hsplit', hheader, hkey, hopen, htime,
      _, hrebuild⟩ := accept_eq_ok_iff.1 h
    obtain ⟨_, _, octets', hdecode', hread'⟩ := openPayload_eq_ok_iff.1 hopen
    -- The payload is the same text in both, so it was read as the same.
    obtain rfl := Option.some.inj (hsplit.symm.trans hsplit')
    obtain rfl := Option.some.inj (hdecode.symm.trans hdecode')
    obtain ⟨rfl, rfl⟩ := Prod.mk.inj (Option.some.inj (hread.symm.trans hread'))
    exact accept_eq_ok_iff.2 ⟨header, payload, segment, members, key, p, .endsAt s, hsplit',
      hheader, hkey, hopen, htime, checkIssuer_eq_ok_iff.2 hissuer, hrebuild⟩

theorem issuer_eq_none_iff_omitsIssuer {t : Token.Parts} {octets : Octets} {p : Token.Payload}
    {s : Int} (hsplit : Token.split? token = some t)
    (hdecode : Base64.decode? Base64.urlSafe t.payload = some octets)
    (hread : Token.readPayload octets = some (p, .endsAt s)) :
    p.issuer = none ↔ Token.OmitsIssuer token := by
  rw [Token.readPayload] at hread
  split at hread
  · cases hread
  · next node hparse =>
    obtain ⟨p', hnode, hp⟩ := Option.map_eq_some_iff.1 hread
    obtain ⟨rfl, hend⟩ := Prod.mk.inj hp
    obtain ⟨⟨raw, rfl⟩, _⟩ := Token.record_of_endsAt hend
    obtain ⟨members, hmembers, _, hiss, _⟩ := Token.ofNode?_record_eq_some hnode
    -- A token determines its payload and its members, so they are the ones that were read here.
    have homits : Token.OmitsIssuer token ↔ "iss" ∉ members.map (·.1) := by
      constructor
      · rintro ⟨t', octets', node', members', hsplit', hdecode', hparse', hmembers', habsent⟩
        obtain rfl := Option.some.inj (hsplit.symm.trans hsplit')
        obtain rfl := Option.some.inj (hdecode.symm.trans hdecode')
        obtain rfl := Option.some.inj (hparse.symm.trans hparse')
        obtain rfl := Option.some.inj (hmembers.symm.trans hmembers')
        exact habsent
      · intro habsent
        exact ⟨t, octets, .record raw, members, hsplit, hdecode, hparse, hmembers, habsent⟩
    rw [homits]
    rcases hiss with ⟨i, hi, v, honce, _⟩ | ⟨hi, habsent⟩
    · refine iff_of_false (by simp [hi]) fun habsent => habsent ?_
      exact List.mem_map.2 ⟨("iss", v), honce.mem, rfl⟩
    · exact iff_of_true hi habsent

/-- The exact effect of an expected issuer: a token is accepted if it would be accepted without
the expectation and its claims have the issuer or it names none; and then its claims have the
issuer unless it names none and another than the empty one is expected. -/
theorem validate_of_expected {i : String} (he : e.issuer = some i) (keys : KeyStore)
    (now : Instant) (token : String) (c : Claims) :
    (e.validate keys now token = .ok c ↔
      e.expectingNone.validate keys now token = .ok c ∧
        (c.issuer = i ∨ Token.OmitsIssuer token)) ∧
    (e.validate keys now token = .ok c →
      (c.issuer = i ↔ ¬ Token.OmitsIssuer token ∨ i = "")) := by
  have hnone : e.expectingNone.issuer = none := rfl
  -- A payload with an issuer is compared, and one without passes with an empty issuer.
  refine ⟨⟨fun h => ?_, fun ⟨h, hcase⟩ => ?_⟩, fun h => ?_⟩
  · obtain ⟨kid, haccept⟩ := validate_eq_ok_iff.1 h
    obtain ⟨t, octets, p, s, hfree, hsplit, hdecode, hread, hc, hissuer⟩ :=
      accept_eq_ok_iff_expectingNone.1 haccept
    refine ⟨validate_eq_ok_iff.2 ⟨kid, hfree⟩, ?_⟩
    rw [← issuer_eq_none_iff_omitsIssuer hsplit hdecode hread, hc]
    cases hp : p.issuer with
    | none => exact .inr rfl
    | some j => exact .inl (hissuer i he j hp)
  · obtain ⟨kid, hfree⟩ := validate_eq_ok_iff.1 h
    obtain ⟨t, octets, p, s, _, hsplit, hdecode, hread, hc, _⟩ :=
      accept_eq_ok_iff_expectingNone.1 hfree
    refine validate_eq_ok_iff.2 ⟨kid, accept_eq_ok_iff_expectingNone.2
      ⟨t, octets, p, s, hfree, hsplit, hdecode, hread, hc, fun expected hexpected j hp => ?_⟩⟩
    obtain rfl : i = expected := Option.some.inj (he.symm.trans hexpected)
    rw [← issuer_eq_none_iff_omitsIssuer hsplit hdecode hread, hc, hp] at hcase
    rcases hcase with hj | hj
    · exact hj
    · cases hj
  · obtain ⟨kid, haccept⟩ := validate_eq_ok_iff.1 h
    obtain ⟨t, octets, p, s, _, hsplit, hdecode, hread, hc, hissuer⟩ :=
      accept_eq_ok_iff_expectingNone.1 haccept
    rw [← issuer_eq_none_iff_omitsIssuer hsplit hdecode hread, hc]
    cases hp : p.issuer with
    | none => simp [eq_comm]
    | some j => simp [hissuer i he j hp]

/-! ### A token that names no issuer -/

/-- A payload without an issuer. -/
def anonymousPayload : List Char :=
  Token.encodeJson (.record
    [("sub", .text "user-1"), ("iat", .int 1700000000), ("exp", .int 1700003600)])

/-- The signature of the sample key on that payload. -/
def anonymousSignature : Octets :=
  (Signature.sign (sample none).scheme Rsa.sampleKey []
    (Token.signingInput (sample none).headerOf anonymousPayload)).toOption.getD []

/-- A token of the sample key that names no issuer. -/
def anonymousToken : String :=
  Token.join (sample none).headerOf anonymousPayload
    (Base64.encode Base64.urlSafe anonymousSignature)

/-- The claims of the token that names no issuer. -/
def anonymousClaims : Claims where
  subject := "user-1"
  issuer := ""
  issuedAt := .ofSeconds 1700000000
  expiresAt := .ofSeconds 1700003600
  roles := .ofList []

theorem verify_anonymousSignature :
    Signature.verify (sample none).scheme Rsa.sampleKey.public_
      (Token.signingInput (sample none).headerOf anonymousPayload) anonymousSignature = true := by
  obtain ⟨signature, hsign⟩ := Signature.exists_sign (sample none).scheme []
    (Token.signingInput (sample none).headerOf anonymousPayload) Rsa.genuine_sampleKey
    Rsa.canSign_sampleKey
  have heq : anonymousSignature = signature := by
    rw [anonymousSignature, hsign]
    rfl
  rw [heq]
  exact Signature.verify_sign (fun h => by cases h) hsign

theorem readPayload_anonymousPayload :
    ∃ octets, Base64.decode? Base64.urlSafe anonymousPayload = some octets ∧
      Token.readPayload octets =
        some (⟨"user-1", none, 1700000000, 1700003600, []⟩, .endsAt 1700003600) := by
  refine ⟨_, Base64.decode?_encode Base64.lawful_urlSafe _, ?_⟩
  have hiat : (Json.node (.int 1700000000)).int? = some 1700000000 :=
    Json.int?_node (by decide) (by decide)
  have hexp : (Json.node (.int 1700003600)).int? = some 1700003600 :=
    Json.int?_node (by decide) (by decide)
  have hmembers := Json.members?_node
    [("sub", .text "user-1"), ("iat", .int 1700000000), ("exp", .int 1700003600)]
  rw [Json.node] at hmembers
  rw [Token.readPayload, Json.parse?_render, Json.node]
  simp [Token.Payload.ofNode?, Token.registered, hmembers, Json.occurrence, Token.required,
    Token.optional, Token.isReadable, hiat, hexp]

/-- Every engine over the sample key accepts the token that names no issuer, whatever issuer it
expects. -/
theorem accept_anonymousToken (issuer : Option String) :
    (sample issuer).accept sampleKeys (.ofSeconds 1700000000) anonymousToken =
      .ok ("key", anonymousClaims) := by
  obtain ⟨octets, hdecode, hread⟩ := readPayload_anonymousPayload
  have hlive : (Instant.ofSeconds 1700000000).seconds ≤ 1700003600 + ((60 : Nat) : Int) := by
    decide
  refine accept_eq_ok_iff.2 ⟨(sample none).headerOf, anonymousPayload,
    Base64.encode Base64.urlSafe anonymousSignature, Token.headerNodes "RS256" "key",
    Rsa.sampleKey, _, _, Token.split?_eq_some_iff.2 ⟨rfl, ?_, ?_, ?_⟩,
    checkHeader_headerOf rfl, get?_sampleKeys,
    openPayload_eq_ok_iff.2 ⟨Token.isTypedHeader_headerJson _ _, ⟨anonymousSignature, ?_, ?_⟩,
      octets, hdecode, hread⟩, checkTime_eq_ok_iff.2 ⟨_, rfl, hlive⟩, ?_, ?_⟩
  · exact Token.dot_notMem_encodeJson _
  · exact Token.dot_notMem_encodeJson _
  · exact Base64.dot_notMem_encode _
  · exact Base64.decode?_encode Base64.lawful_urlSafe _
  · exact verify_anonymousSignature
  -- No issuer is named, so there is nothing to compare.
  · refine checkIssuer_eq_ok_iff.2 fun _ _ i hi => ?_
    cases hi
  · exact rebuild_eq_ok_iff.2 ⟨rfl, by constructor <;> decide, by constructor <;> decide⟩

/-- An engine that expects an issuer accepts a token of a registered key whose claims do not have
it. -/
theorem validate_anonymousToken :
    (sample (some "accounts")).validate sampleKeys (.ofSeconds 1700000000) anonymousToken =
        .ok anonymousClaims ∧
      anonymousClaims.issuer ≠ "accounts" :=
  ⟨validate_eq_ok_iff.2 ⟨"key", accept_anonymousToken (some "accounts")⟩, by decide⟩

theorem validate_of_expected_anonymousToken :
    (anonymousClaims.issuer = "accounts" ∨ Token.OmitsIssuer anonymousToken) ∧
      (anonymousClaims.issuer = "accounts" ↔
        ¬ Token.OmitsIssuer anonymousToken ∨ "accounts" = "") := by
  have hvalidate := validate_eq_ok_iff.2 ⟨"key", accept_anonymousToken (some "accounts")⟩
  obtain ⟨heffect, hissuer⟩ := validate_of_expected (e := sample (some "accounts")) rfl
    sampleKeys (.ofSeconds 1700000000) anonymousToken anonymousClaims
  exact ⟨(heffect.1 hvalidate).2, hissuer hvalidate⟩

end Auth.Engine

end AccountService
