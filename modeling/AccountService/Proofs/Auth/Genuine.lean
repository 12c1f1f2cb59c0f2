import AccountService.Proofs.Auth.RoundTrip

/-!
# Accepted tokens are genuine

Whatever text an engine accepts, the text vouches for the claims: it names the algorithm of the
engine and a registered key, this key signed it, and the claims stand in it and still hold.

## Main definitions

* `Auth.Engine.Vouches` — what the segments of a token vouch for

## Main statements

* `Auth.Engine.carries_of_rebuild` — what is rebuilt from a payload stands in it
* `Auth.Engine.vouches_of_validate` — an accepted token vouches for its claims
-/

namespace AccountService.Auth.Engine

/-- What three segments of a token, the name of a key and the key vouch for. -/
structure Vouches (e : Engine) (keys : KeyStore) (now : Instant) (token : String) (c : Claims)
    (header payload segment : List Char) (kid : String) (key : Rsa.KeyPair) : Prop where
  /-- The token has exactly these three segments. -/
  token_eq : token = Token.join header payload segment
  dot_notMem : '.' ∉ header ∧ '.' ∉ payload ∧ '.' ∉ segment
  /-- The first names the algorithm of the engine and the key, each once. -/
  declares : Token.Declares header e.algorithm.name kid
  bound : keys.get? kid = some key
  /-- The third is a signature of the other two under the key. -/
  signed : ∃ signature, segment = Base64.encode Base64.urlSafe signature ∧
    Signature.verify e.scheme key.public_
      (Octets.ofText (String.ofList (header ++ '.' :: payload))) signature = true
  /-- The second has the claims in it. -/
  carries : Token.Carries payload c
  live : now.seconds ≤ c.expiresAt.seconds + e.leeway
  wellFormed : c.WellFormed
  representable : c.Representable

/-- What is rebuilt from a payload stands in it, and its end is the one that counts. -/
theorem carries_of_rebuild {segment : List Char} {octets : Octets} {p : Token.Payload} {s : Int}
    {c : Claims} (hdecode : Base64.decode? Base64.urlSafe segment = some octets)
    (hread : Token.readPayload octets = some (p, .endsAt s)) (hrebuild : rebuild p = .ok c) :
    Token.Carries segment c ∧ s = c.expiresAt.seconds := by
  rw [Token.readPayload] at hread
  split at hread
  · cases hread
  · next node hparse =>
    obtain ⟨p', hnode, hp⟩ := Option.map_eq_some_iff.1 hread
    obtain ⟨rfl, hend⟩ := Prod.mk.inj hp
    -- Claims that come from a list have no end, so these come from a record.
    obtain ⟨⟨raw, rfl⟩, rfl⟩ := Token.record_of_endsAt hend
    obtain ⟨members, hmembers, hsub, hiss, hiat, hexp, hroles⟩ := Token.ofNode?_record_eq_some hnode
    obtain ⟨rfl, _, _⟩ := rebuild_eq_ok_iff.1 hrebuild
    refine ⟨⟨octets, .record raw, members, Base64.eq_encode_of_decode? hdecode, hparse, hmembers,
      hsub, ?_, ?_, ?_, ?_⟩, (Instant.seconds_ofSeconds _).symm⟩
    · rwa [Instant.seconds_ofSeconds]
    · rwa [Instant.seconds_ofSeconds]
    · rcases hiss with ⟨i, hi, hhas⟩ | ⟨hi, habsent⟩
      · exact .inl (by rwa [hi])
      · exact .inr ⟨habsent, by rw [hi]; rfl⟩
    · rcases hroles with hhas | ⟨hnil, habsent⟩
      · exact .inl ⟨p'.roles, hhas, fun r => RoleSet.mem_ofList r p'.roles⟩
      · exact .inr ⟨habsent, by rw [hnil]; rfl⟩

/-- An accepted token vouches for the claims that it yields. -/
theorem vouches_of_accept {e : Engine} {keys : KeyStore} {now : Instant} {token kid : String}
    {c : Claims} (h : e.accept keys now token = .ok (kid, c)) :
    ∃ header payload segment key,
      Vouches e keys now token c header payload segment kid key := by
  obtain ⟨header, payload, segment, members, key, p, r, hsplit, hheader, hkey, hopen, htime, _,
    hrebuild⟩ := accept_eq_ok_iff.1 h
  -- Each stage that was passed says something about the text.
  obtain ⟨htoken, hdots⟩ := Token.split?_eq_some_iff.1 hsplit
  obtain ⟨octets, hdecode, hmembers, hkid, halgorithm⟩ := checkHeader_eq_ok_iff.1 hheader
  obtain ⟨htyped, ⟨signature, hsignature, hverify⟩, octets', hdecode', hread⟩ :=
    openPayload_eq_ok_iff.1 hopen
  obtain ⟨s, rfl, hlive⟩ := checkTime_eq_ok_iff.1 htime
  obtain ⟨hcarries, rfl⟩ := carries_of_rebuild hdecode' hread hrebuild
  obtain ⟨_, hrepresentable, hform⟩ := rebuild_eq_ok_iff.1 hrebuild
  exact ⟨header, payload, segment, key,
    { token_eq := htoken
      dot_notMem := hdots
      declares := Token.declares_of_typed hdecode hmembers halgorithm hkid htyped
      bound := hkey
      signed := ⟨signature, Base64.eq_encode_of_decode? hsignature, hverify⟩
      carries := hcarries
      live := hlive
      wellFormed := hform
      representable := hrepresentable }⟩

/-- A token that is validated vouches for the claims that it yields, whatever text it is and
whatever keys are registered. -/
theorem vouches_of_validate {e : Engine} {keys : KeyStore} {now : Instant} {token : String}
    {c : Claims} (h : e.validate keys now token = .ok c) :
    ∃ header payload segment kid key,
      Vouches e keys now token c header payload segment kid key := by
  obtain ⟨kid, haccept⟩ := validate_eq_ok_iff.1 h
  obtain ⟨header, payload, segment, key, hvouches⟩ := vouches_of_accept haccept
  exact ⟨header, payload, segment, kid, key, hvouches⟩

theorem vouches_of_validate_sample :
    ∃ token header payload segment kid key,
      (sample (some "accounts")).validate sampleKeys (.ofSeconds 1700003660) token =
        .ok sampleClaims ∧
      Vouches (sample (some "accounts")) sampleKeys (.ofSeconds 1700003660) token sampleClaims
        header payload segment kid key := by
  obtain ⟨token, haccept⟩ := exists_accept_sample
  have hvalidate := validate_eq_ok_iff.2 ⟨"key", haccept⟩
  obtain ⟨header, payload, segment, kid, key, hvouches⟩ := vouches_of_validate hvalidate
  exact ⟨token, header, payload, segment, kid, key, hvalidate, hvouches⟩

end AccountService.Auth.Engine
