import AccountService.Proofs.Auth.Genuine
import Mathlib.Data.Set.Basic

/-!
# How long a token is accepted

The clock and the leeway have a part in the acceptance of a token only through their difference,
which must not lie beyond the end that the token names. Everything else that is asked of a token is
the same at all times. So a token that is accepted is accepted with the same claims at every
earlier reading and with every greater leeway, and the readings at which it is accepted are
an interval.

## Main definitions

* `Auth.Engine.withLeeway` — an engine with another leeway
* `Auth.Engine.Attests` — what is asked of a token at all times
* `Auth.Engine.acceptingTimes` — the readings at which a token is accepted
* `Auth.Engine.Lasting` — what time and leeway do to the acceptance of a token

## Main statements

* `Auth.Engine.accept_eq_ok_iff_attests` — acceptance is what is asked at all times and one
  comparison
* `Auth.Engine.checkTime_eq_unsigned` — the comparison may be made in unsigned 64-bit numbers
* `Auth.Engine.lasting` — acceptance is monotone in time and leeway
-/

namespace AccountService.Auth.Engine

/-- An engine with another leeway. -/
def withLeeway (e : Engine) (leeway : ℕ) : Engine := { e with leeway := leeway }

variable {e : Engine} {keys : KeyStore} {now : Instant} {token kid : String} {c : Claims}

/-! ### What is asked at all times -/

/-- What is asked of a token at all times: each stage but that of the time lets it pass, with these
claims, and their end is the one that counts. -/
def Attests (e : Engine) (keys : KeyStore) (token kid : String) (c : Claims) : Prop :=
  ∃ header payload segment members key p,
    Token.split? token = some ⟨header, payload, segment⟩ ∧
    e.checkHeader header = .ok (kid, members) ∧ keys.get? kid = some key ∧
    e.openPayload key.public_ members ⟨header, payload, segment⟩ =
      .ok (p, .endsAt c.expiresAt.seconds) ∧
    e.checkIssuer p = .ok () ∧ rebuild p = .ok c

/-- Acceptance is what is asked at all times and one comparison of the clock. -/
theorem accept_eq_ok_iff_attests :
    e.accept keys now token = .ok (kid, c) ↔
      e.Attests keys token kid c ∧ now.seconds ≤ c.expiresAt.seconds + e.leeway := by
  rw [accept_eq_ok_iff]
  constructor
  · rintro ⟨header, payload, segment, members, key, p, r, hsplit, hheader, hkey, hopen, htime,
      hissuer, hrebuild⟩
    obtain ⟨s, rfl, hlive⟩ := checkTime_eq_ok_iff.1 htime
    -- The registered claims and the claims proper are two readings of one payload.
    obtain ⟨_, _, octets, hdecode, hread⟩ := openPayload_eq_ok_iff.1 hopen
    obtain ⟨_, rfl⟩ := carries_of_rebuild hdecode hread hrebuild
    exact ⟨⟨header, payload, segment, members, key, p, hsplit, hheader, hkey, hopen, hissuer,
      hrebuild⟩, hlive⟩
  · rintro ⟨⟨header, payload, segment, members, key, p, hsplit, hheader, hkey, hopen, hissuer,
      hrebuild⟩, hlive⟩
    exact ⟨header, payload, segment, members, key, p, _, hsplit, hheader, hkey, hopen,
      checkTime_eq_ok_iff.2 ⟨_, rfl, hlive⟩, hissuer, hrebuild⟩

theorem validate_eq_ok_iff_attests :
    e.validate keys now token = .ok c ↔
      (∃ kid, e.Attests keys token kid c) ∧ now.seconds ≤ c.expiresAt.seconds + e.leeway := by
  simp only [validate_eq_ok_iff, accept_eq_ok_iff_attests, exists_and_right]

/-- A token stands for one value of claims. -/
theorem Attests.unique {kid' : String} {c' : Claims} (h : e.Attests keys token kid c)
    (h' : e.Attests keys token kid' c') : c = c' := by
  -- At the earlier of the two ends both are accepted, and acceptance has one answer.
  let early := Instant.ofSeconds (min c.expiresAt.seconds c'.expiresAt.seconds)
  have hearly : early.seconds = min c.expiresAt.seconds c'.expiresAt.seconds :=
    Instant.seconds_ofSeconds _
  have haccept : e.accept keys early token = .ok (kid, c) :=
    accept_eq_ok_iff_attests.2 ⟨h, by omega⟩
  have haccept' : e.accept keys early token = .ok (kid', c') :=
    accept_eq_ok_iff_attests.2 ⟨h', by omega⟩
  exact (Prod.mk.inj (Except.ok.inj (haccept.symm.trans haccept'))).2

/-! ### The comparison -/

/-- With a leeway not above the clock, the comparison of the time may be made in unsigned 64-bit
numbers: the subtraction does not wrap around. -/
theorem checkTime_eq_unsigned {leeway clock s : UInt64} (h : leeway ≤ clock) :
    (e.withLeeway leeway.toNat).checkTime (.ofSeconds clock.toNat) (.endsAt s.toNat) =
      if s < clock - leeway then .error .expired else .ok () := by
  have hle := UInt64.le_iff_toNat_le.1 h
  have hlt : s < clock - leeway ↔ (s.toNat : ℤ) < clock.toNat - leeway.toNat := by
    rw [UInt64.lt_iff_toNat_lt, UInt64.toNat_sub_of_le _ _ h]
    omega
  simp only [checkTime, withLeeway, Instant.seconds_ofSeconds, hlt]

/-! ### Acceptance over time -/

/-- The readings, in nanoseconds and with the leeway not above them, at which a token is
accepted. -/
def acceptingTimes (e : Engine) (keys : KeyStore) (token : String) : Set ℤ :=
  {n | (e.leeway : ℤ) ≤ (Instant.mk n).seconds ∧ ∃ c, e.validate keys ⟨n⟩ token = .ok c}

/-- What time and leeway do to the acceptance of a token, as long as the leeway is not above the
clock. -/
structure Lasting (e : Engine) (keys : KeyStore) (token : String) : Prop where
  /-- A token that is accepted at one reading with one leeway is accepted, with the same claims,
  at every other reading with any leeway that does not put their difference later. -/
  carries : ∀ (l₁ l₂ : ℕ) (n₁ n₂ : Instant) (c : Claims),
    (l₁ : ℤ) ≤ n₁.seconds → (l₂ : ℤ) ≤ n₂.seconds → n₂.seconds - l₂ ≤ n₁.seconds - l₁ →
      (e.withLeeway l₁).validate keys n₁ token = .ok c →
        (e.withLeeway l₂).validate keys n₂ token = .ok c
  /-- The accepting readings are an interval without a gap. Where there are any, they begin with the
  first reading that is not below the leeway and end with the end of a second. -/
  interval : ∃ last : ℤ, e.acceptingTimes keys token =
    {n | e.leeway * Instant.second ≤ n ∧ n < last * Instant.second}
  /-- A token that is answered with its expiry is not accepted at any later reading. -/
  expired : ∀ n₁ n₂ : Instant, (e.leeway : ℤ) ≤ n₁.seconds → n₁.nanos ≤ n₂.nanos →
    e.validate keys n₁ token = .error .expired → ∀ c, e.validate keys n₂ token ≠ .ok c
  /-- A greater leeway does not reject a token that was accepted. -/
  raised : ∀ (l : ℕ) (n : Instant) (c : Claims), e.leeway ≤ l → (l : ℤ) ≤ n.seconds →
    e.validate keys n token = .ok c → (e.withLeeway l).validate keys n token = .ok c

/-- Time and leeway have a part in acceptance only through their difference. -/
theorem validate_of_earlier {l₁ l₂ : ℕ} {n₁ n₂ : Instant}
    (h : n₂.seconds - l₂ ≤ n₁.seconds - l₁)
    (haccept : (e.withLeeway l₁).validate keys n₁ token = .ok c) :
    (e.withLeeway l₂).validate keys n₂ token = .ok c := by
  obtain ⟨hattests, hlive⟩ := validate_eq_ok_iff_attests.1 haccept
  refine validate_eq_ok_iff_attests.2 ⟨hattests, ?_⟩
  simp only [withLeeway] at hlive ⊢
  omega

/-- The readings at which a token is accepted whose claims are known. -/
theorem acceptingTimes_of_attests (h : e.Attests keys token kid c) :
    e.acceptingTimes keys token =
      {n | e.leeway * Instant.second ≤ n ∧
        n < (c.expiresAt.seconds + e.leeway + 1) * Instant.second} := by
  ext n
  rw [acceptingTimes, Set.mem_ofPred_eq, Set.mem_ofPred_eq, Instant.le_seconds_iff,
    ← Instant.seconds_le_iff (t := ⟨n⟩)]
  refine and_congr_right fun _ => ?_
  constructor
  · rintro ⟨c', haccept⟩
    obtain ⟨⟨kid', hattests⟩, hlive⟩ := validate_eq_ok_iff_attests.1 haccept
    rwa [h.unique hattests]
  · exact fun hlive => ⟨c, validate_eq_ok_iff_attests.2 ⟨⟨kid, h⟩, hlive⟩⟩

/-- The readings at which a token is accepted are an interval. -/
theorem exists_acceptingTimes (e : Engine) (keys : KeyStore) (token : String) :
    ∃ last : ℤ, e.acceptingTimes keys token =
      {n | e.leeway * Instant.second ≤ n ∧ n < last * Instant.second} := by
  by_cases h : ∃ kid c, e.Attests keys token kid c
  · obtain ⟨kid, c, hattests⟩ := h
    exact ⟨_, acceptingTimes_of_attests hattests⟩
  · refine ⟨e.leeway, Set.ext fun n => iff_of_false ?_ fun hn => ?_⟩
    · rintro ⟨-, c, haccept⟩
      obtain ⟨⟨kid, hattests⟩, -⟩ := validate_eq_ok_iff_attests.1 haccept
      exact h ⟨kid, c, hattests⟩
    · exact absurd hn.2 (Int.not_lt.2 hn.1)

/-- Acceptance is monotone in time and leeway, for every text, every engine and every store of
keys. -/
theorem lasting (e : Engine) (keys : KeyStore) (token : String) : e.Lasting keys token where
  carries l₁ l₂ n₁ n₂ c _ _ hle haccept := validate_of_earlier hle haccept
  interval := exists_acceptingTimes e keys token
  expired n₁ n₂ _ hlater hexpired c haccept := by
    have hearlier : n₁.seconds - e.leeway ≤ n₂.seconds - e.leeway :=
      Instant.seconds_sub_le (by omega)
    have haccept₁ : e.validate keys n₁ token = .ok c :=
      validate_of_earlier (e := e) hearlier haccept
    cases hexpired.symm.trans haccept₁
  raised l n c hl _ haccept := by
    have hearlier : n.seconds - l ≤ n.seconds - e.leeway := by omega
    exact validate_of_earlier (e := e) hearlier haccept

/-- A token that is accepted in the last second of its leeway of a minute is accepted 59 minutes
later with a leeway of an hour. -/
theorem lasting_sample :
    ∃ token, (sample (some "accounts")).validate sampleKeys (.ofSeconds 1700003660) token =
        .ok sampleClaims ∧
      ((sample (some "accounts")).withLeeway 3600).validate sampleKeys (.ofSeconds 1700007200)
        token = .ok sampleClaims := by
  obtain ⟨token, haccept⟩ := exists_accept_sample
  have hvalidate := validate_eq_ok_iff.2 ⟨"key", haccept⟩
  have hlasting := lasting (sample (some "accounts")) sampleKeys token
  exact ⟨token, hvalidate, hlasting.carries 60 3600 (.ofSeconds 1700003660) (.ofSeconds 1700007200)
    sampleClaims (by decide) (by decide) (by decide) hvalidate⟩

end AccountService.Auth.Engine
