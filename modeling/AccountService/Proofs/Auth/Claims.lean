import AccountService.Auth.Engine
import AccountService.Proofs.Time.Instant

/-!
# Claims that may be signed and accepted

The check of claims comes to three conditions on them. Claims that are rebuilt from a payload
meet these conditions, and their times are ones that a timestamp can hold.

## Main definitions

* `Auth.Claims.WellFormed` — the conditions that the check comes to
* `Auth.Claims.Representable` — both times can be held in a timestamp

## Main statements

* `Auth.Claims.check_eq_ok_iff` — the check passes well-formed claims and no others
* `Auth.Engine.rebuild_eq_ok_iff` — what is rebuilt from a payload
-/

namespace AccountService.Auth

namespace Claims

/-- Somebody is named, both times are whole seconds, and the end comes after the start. -/
structure WellFormed (c : Claims) : Prop where
  subject : Text.isBlankText c.subject = false
  issuedAt : c.issuedAt.subsecond = 0
  expiresAt : c.expiresAt.subsecond = 0
  ordered : c.issuedAt.nanos < c.expiresAt.nanos

/-- Both times can be held in a timestamp. -/
structure Representable (c : Claims) : Prop where
  issuedAt : c.issuedAt.isTimestamp = true
  expiresAt : c.expiresAt.isTimestamp = true

/-- The check passes well-formed claims and no others. -/
theorem check_eq_ok_iff {c : Claims} : c.check = .ok () ↔ c.WellFormed := by
  constructor
  · intro h
    rw [check] at h
    split at h
    · cases h
    · next hsubject =>
      split at h
      · cases h
      · next hstart =>
        split at h
        · cases h
        · next hend =>
          split at h
          · cases h
          · next horder =>
            exact ⟨by simpa using hsubject, Decidable.of_not_not hstart,
              Decidable.of_not_not hend, by omega⟩
  · rintro ⟨hsubject, hstart, hend, horder⟩
    rw [check, if_neg (by simp [hsubject]), if_neg (by simp [hstart]), if_neg (by simp [hend]),
      if_neg (by omega)]

end Claims

namespace Engine

theorem timestamp_eq_ok_iff {claim : String} {seconds : Int} {t : Instant} :
    timestamp claim seconds = .ok t ↔ t = .ofSeconds seconds ∧ t.isTimestamp = true := by
  rw [timestamp]
  split
  · next h =>
    constructor
    · intro heq
      obtain rfl := Except.ok.inj heq
      exact ⟨rfl, h⟩
    · rintro ⟨rfl, _⟩
      rfl
  · next h =>
    constructor
    · intro heq
      cases heq
    · rintro ⟨rfl, htime⟩
      exact absurd htime h

/-- What is rebuilt from a payload: the claims as they stand there, if they are well formed and
their times can be held. -/
theorem rebuild_eq_ok_iff {p : Token.Payload} {c : Claims} :
    rebuild p = .ok c ↔
      c = ⟨p.subject, p.issuer.getD "", .ofSeconds p.issuedAt, .ofSeconds p.expiresAt,
          .ofList p.roles⟩ ∧
        c.Representable ∧ c.WellFormed := by
  constructor
  · intro h
    rw [rebuild] at h
    split at h
    · cases h
    · next issuedAt hstart =>
      split at h
      · cases h
      · next expiresAt hend =>
        obtain ⟨rfl, hstart⟩ := timestamp_eq_ok_iff.1 hstart
        obtain ⟨rfl, hend⟩ := timestamp_eq_ok_iff.1 hend
        simp only at h
        split at h
        · cases h
        · next hcheck =>
          obtain rfl := Except.ok.inj h
          exact ⟨rfl, ⟨hstart, hend⟩, Claims.check_eq_ok_iff.1 hcheck⟩
  · rintro ⟨rfl, ⟨hstart, hend⟩, hform⟩
    have hiat : timestamp "iat" p.issuedAt = .ok (.ofSeconds p.issuedAt) :=
      timestamp_eq_ok_iff.2 ⟨rfl, hstart⟩
    have hexp : timestamp "exp" p.expiresAt = .ok (.ofSeconds p.expiresAt) :=
      timestamp_eq_ok_iff.2 ⟨rfl, hend⟩
    simp only [rebuild, hiat, hexp, Claims.check_eq_ok_iff.2 hform]

end Engine

end AccountService.Auth
