import AccountService.Proofs.Auth.Header

/-!
# What an engine asks its keys for

An engine asks its store for one key: the one that a token names when it validates, and its active
one when it signs. Nothing else of the store has a part in the answer.

## Main definitions

* `Token.NamesKey` — the key that a token names
* `Auth.Engine.Signs` — a key signs claims

## Main statements

* `Auth.Engine.validate_congr` — stores that bind the key of a token alike give the same answer
* `Auth.Engine.validate_of_unbound` — how a token is refused whose key is not bound
* `Auth.Engine.generate_eq_signing_iff` — when the signing of claims fails for want of a key
-/

namespace AccountService

open Json (Node)

/-- A token of three segments names a key in its first one. Of repeated names the last counts. -/
def Token.NamesKey (token kid : String) : Prop :=
  ∃ t members, Token.split? token = some t ∧ Token.Reads t.header members ∧
    (Json.last? "kid" members).bind Node.text? = some kid

namespace Auth

open Token (Faulty FirstFault NamesKey)

theorem Claims.check_ne_signing {c : Claims} {detail : String} :
    c.check ≠ .error (.signing detail) := by
  intro h
  rw [check] at h
  -- Every branch is another error or none.
  repeat' split at h
  all_goals cases h

namespace Engine

variable {e : Engine} {keys keys' : KeyStore} {now : Instant} {token kid : String}

/-! ### Validation -/

/-- The key that the check of a header finds is the one that the token names. -/
theorem namesKey_of_checkHeader {t : Token.Parts} {members : List (String × Node)}
    (hsplit : Token.split? token = some t) (h : e.checkHeader t.header = .ok (kid, members)) :
    NamesKey token kid := by
  obtain ⟨octets, hdecode, hmembers, hkid, -⟩ := checkHeader_eq_ok_iff.1 h
  exact ⟨t, members, hsplit, (Token.reads_iff hdecode).2 hmembers, hkid⟩

theorem namesKey_unique {kid' : String} (h : NamesKey token kid) (h' : NamesKey token kid') :
    kid = kid' := by
  obtain ⟨t, members, hsplit, hreads, hkid⟩ := h
  obtain ⟨t', members', hsplit', hreads', hkid'⟩ := h'
  obtain rfl := Option.some.inj (hsplit.symm.trans hsplit')
  obtain rfl := hreads.unique hreads'
  exact Option.some.inj (hkid.symm.trans hkid')

theorem lookup_congr (h : keys.get? kid = keys'.get? kid) : keys.lookup kid = keys'.lookup kid := by
  rw [KeyStore.lookup, KeyStore.lookup, h]

/-- Stores that bind the key of a token alike give the same answer. -/
theorem validate_congr (h : ∀ kid, NamesKey token kid → keys.get? kid = keys'.get? kid) :
    e.validate keys now token = e.validate keys' now token := by
  rw [validate, validate, accept, accept]
  cases hsplit : Token.split? token with
  | none => rfl
  | some t =>
    cases hheader : e.checkHeader t.header with
    | error err => simp only [hheader]
    | ok r =>
      obtain ⟨kid, members⟩ := r
      have hkid := h kid (namesKey_of_checkHeader hsplit hheader)
      simp only [hheader, lookup_congr hkid]

/-- A token whose key is not bound is refused: for the first fault of its header if there is one,
and else for its key. -/
theorem validate_of_unbound {t : Token.Parts} (now : Instant) (hsplit : Token.split? token = some t)
    (hname : NamesKey token kid) (hunbound : keys.get? kid = none) :
    (¬ Faulty e.algorithm t.header → e.validate keys now token = .error (.keyNotFound kid)) ∧
      (Faulty e.algorithm t.header → ∃ err, FirstFault e.algorithm t.header err ∧
        e.validate keys now token = .error err) := by
  cases hheader : e.checkHeader t.header with
  | ok r =>
    obtain ⟨kid', members⟩ := r
    refine ⟨fun _ => ?_, fun hfaulty => absurd hfaulty (not_faulty_of_checkHeader hheader)⟩
    obtain rfl := namesKey_unique hname (namesKey_of_checkHeader hsplit hheader)
    simp only [validate, accept, hsplit, hheader, KeyStore.lookup, hunbound]
    rfl
  | error err =>
    have hfault := checkHeader_eq_error_iff.1 hheader
    refine ⟨fun hsound => absurd hfault.faulty hsound, fun _ => ⟨err, hfault, ?_⟩⟩
    exact validate_of_firstFault keys now hsplit hfault

/-! ### Signing -/

/-- A key signs claims for an engine. -/
def Signs (e : Engine) (key : Rsa.KeyPair) (salt : Octets) (c : Claims) : Prop :=
  ∃ signature, Signature.sign e.scheme key salt
    (Token.signingInput e.headerOf (Token.encodeJson (Token.payloadJson c))) = .ok signature

/-- A genuine key signs claims exactly if it is one that may sign. -/
theorem signs_iff_canSign {key : Rsa.KeyPair} {salt : Octets} {c : Claims} (h : key.Genuine) :
    e.Signs key salt c ↔ key.canSign = true := by
  constructor
  · rintro ⟨signature, hsign⟩
    by_contra hcan
    rw [Signature.sign, if_neg hcan] at hsign
    cases hsign
  · exact Signature.exists_sign e.scheme salt _ h

/-- The signing of claims fails for want of a key exactly if the claims are well formed and the
active key is not bound or does not sign them. -/
theorem generate_eq_signing_iff {salt : Octets} {c : Claims} :
    (∃ detail, e.generate keys salt c = .error (.signing detail)) ↔
      c.WellFormed ∧ (keys.get? e.activeKid = none ∨
        ∃ key, keys.get? e.activeKid = some key ∧ ¬ e.Signs key salt c) := by
  rw [generate, ← Claims.check_eq_ok_iff]
  cases hcheck : c.check with
  | error err =>
    refine iff_of_false ?_ fun h => by cases h.1
    rintro ⟨detail, h⟩
    obtain rfl : err = .signing detail := Except.error.inj h
    exact Claims.check_ne_signing hcheck
  | ok u =>
    simp only [KeyStore.lookup]
    cases keys.get? e.activeKid with
    | none => simp
    | some key =>
      cases hsign : Signature.sign e.scheme key salt
        (Token.signingInput e.headerOf (Token.encodeJson (Token.payloadJson c))) with
      | error fault =>
        have hnot : ¬ e.Signs key salt c := by
          rintro ⟨signature, h⟩
          cases hsign.symm.trans h
        rw [headerOf] at hsign
        simp [hsign, hnot]
      | ok signature =>
        have hsigns : e.Signs key salt c := ⟨signature, hsign⟩
        rw [headerOf] at hsign
        simp [hsign, hsigns]

end Engine

end Auth

end AccountService
