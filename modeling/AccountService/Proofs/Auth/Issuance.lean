import AccountService.Proofs.Auth.Lookup

/-!
# Claims that hold from now on

Claims are issued exactly: they start at the last whole second, hold for the span that was asked for
to the nanosecond, and have the roles that were listed. They fail only when a timestamp cannot hold
their end, or when the clock cannot be read.

Only the start is put on a whole second. A span that is none ends the claims within a second, and
such claims are issued all the same, but no engine signs them.

## Main definitions

* `Auth.Claims.Exact` — what is exact about issued claims

## Main statements

* `Auth.Claims.issue_eq_ok_iff`, `Auth.Claims.issue_eq_error_iff` — the outcomes of issuing claims
* `Auth.Claims.exact_issueBy` — claims are issued exactly, up to the ends of time
* `Auth.Claims.not_exact_before_1970` — before 1970 nothing is issued
* `Auth.Claims.signable_issueBy` — which issued claims may be signed
* `Auth.Claims.not_signable_of_fraction` — issued claims that no engine signs
-/

namespace AccountService.Auth

namespace Claims

variable {now reading : Instant} {subject issuer : String} {roles : List String} {ttl : Span}
  {c : Claims}

theorem issue_eq_ok_iff :
    issue now subject issuer roles ttl = .ok c ↔
      (now.floorSecond.add ttl).isTimestamp = true ∧
        c = ⟨subject, issuer, now.floorSecond, now.floorSecond.add ttl, .ofList roles⟩ := by
  rw [issue]
  split
  · next h => simp [h, eq_comm]
  · next h => simp [h]

theorem issue_eq_error_iff {err : Error} :
    issue now subject issuer roles ttl = .error err ↔
      ¬ (now.floorSecond.add ttl).isTimestamp = true ∧
        err = .invalidClaim "exp" ("now + " ++ ttl.iso8601) := by
  rw [issue]
  split
  · next h => simp [h]
  · next h => simp [h, eq_comm]

theorem issueBy_eq_ok_iff {result : Except Error Claims} :
    issueBy reading subject issuer roles ttl = .ok result ↔
      (0 ≤ reading.nanos ∧ reading.isTimestamp = true) ∧
        issue reading subject issuer roles ttl = result := by
  rw [issueBy]
  cases hread : Clock.read reading with
  | error report =>
    refine iff_of_false (fun h => by cases h) fun h => ?_
    cases hread.symm.trans (Clock.read_eq_ok_iff.2 ⟨rfl, h.1⟩)
  | ok now =>
    obtain ⟨rfl, hreadable⟩ := Clock.read_eq_ok_iff.1 hread
    simp [Except.map, hreadable]

/-! ### To the nanosecond -/

/-- What is exact about claims that are issued to start at an instant. Instants are counted in
nanoseconds, over the integers. -/
structure Exact (start : ℤ) (subject issuer : String) (roles : List String) (ttl : Span)
    (result : Except Error Claims) : Prop where
  /-- Claims are issued exactly if a timestamp can hold the start and the span together. -/
  ok_iff : (∃ c, result = .ok c) ↔
    Instant.firstSecond * Instant.second ≤ start + ttl.nanos ∧
      start + ttl.nanos < (Instant.lastSecond + 1) * Instant.second
  names : ∀ c, result = .ok c → c.subject = subject ∧ c.issuer = issuer
  /-- They hold from the start for the span. -/
  times : ∀ c, result = .ok c →
    c.issuedAt.nanos = start ∧ c.expiresAt.nanos - c.issuedAt.nanos = ttl.nanos
  /-- They have the roles that are listed. -/
  hasRole : ∀ c, result = .ok c → ∀ r, c.hasRole r = true ↔ r ∈ roles
  /-- Otherwise the end is refused. -/
  error : (¬ ∃ c, result = .ok c) → result = .error (.invalidClaim "exp" ("now + " ++ ttl.iso8601))

theorem exact_issue (now : Instant) (subject issuer : String) (roles : List String) (ttl : Span) :
    Exact now.floorSecond.nanos subject issuer roles ttl (issue now subject issuer roles ttl) where
  ok_iff := by
    simp only [issue_eq_ok_iff, exists_and_left, exists_eq, and_true, Instant.isTimestamp_iff,
      Instant.add]
  names c h := by
    obtain ⟨-, rfl⟩ := issue_eq_ok_iff.1 h
    exact ⟨rfl, rfl⟩
  times c h := by
    obtain ⟨-, rfl⟩ := issue_eq_ok_iff.1 h
    refine ⟨rfl, ?_⟩
    simp only [Instant.add]
    omega
  hasRole c h r := by
    obtain ⟨-, rfl⟩ := issue_eq_ok_iff.1 h
    exact RoleSet.contains_ofList r roles
  error h := by
    cases hissue : issue now subject issuer roles ttl with
    | ok c => exact absurd ⟨c, hissue⟩ h
    | error err => rw [(issue_eq_error_iff.1 hissue).2]

/-- Order and repetition of the listed roles have no effect. -/
theorem issue_congr {roles' : List String} (h : ∀ r, r ∈ roles' ↔ r ∈ roles) :
    issue now subject issuer roles' ttl = issue now subject issuer roles ttl := by
  have hroles : RoleSet.ofList roles' = RoleSet.ofList roles :=
    RoleSet.ext fun r => by rw [RoleSet.mem_ofList, RoleSet.mem_ofList, h]
  rw [issue, issue, hroles]

/-- Claims are issued exactly, whatever the clock reads and whatever span is asked for, by every
clock that can be read; a clock that cannot be read issues nothing. They start at the greatest whole
second that is not after the reading. -/
theorem exact_issueBy (reading : Instant) (subject issuer : String) (roles : List String)
    (ttl : Span) :
    ((∃ result, issueBy reading subject issuer roles ttl = .ok result) ↔
      0 ≤ reading.nanos ∧ reading.isTimestamp = true) ∧
    (∃ start, IsGreatest {n : ℤ | Instant.second ∣ n ∧ n ≤ reading.nanos} start ∧
      ∀ result, issueBy reading subject issuer roles ttl = .ok result →
        Exact start subject issuer roles ttl result) ∧
    ∀ roles' : List String, (∀ r, r ∈ roles' ↔ r ∈ roles) →
      issueBy reading subject issuer roles' ttl = issueBy reading subject issuer roles ttl := by
  refine ⟨?_, ⟨_, Instant.isGreatest_floorSecond reading, fun result h => ?_⟩, fun roles' h => ?_⟩
  · simp only [issueBy_eq_ok_iff, exists_and_left, exists_eq', and_true]
  · obtain ⟨-, rfl⟩ := issueBy_eq_ok_iff.1 h
    exact exact_issue reading subject issuer roles ttl
  · simp only [issueBy, issue_congr h]

/-- In the last second of a timestamp, claims are issued until the last nanosecond. -/
theorem exact_issueBy_lastSecond :
    ∃ c start, issueBy (.ofSeconds Instant.lastSecond) "user-1" "accounts" ["USER", "USER"]
        ⟨999999999⟩ = .ok (.ok c) ∧
      IsGreatest {n : ℤ | Instant.second ∣ n ∧ n ≤ (Instant.ofSeconds Instant.lastSecond).nanos}
        start ∧
      Exact start "user-1" "accounts" ["USER", "USER"] ⟨999999999⟩ (.ok c) := by
  have hissue : issueBy (.ofSeconds Instant.lastSecond) "user-1" "accounts" ["USER", "USER"]
      ⟨999999999⟩ = .ok (.ok ⟨"user-1", "accounts", .ofSeconds Instant.lastSecond,
        ⟨8210266876799999999999⟩, .ofList ["USER"]⟩) := by decide
  obtain ⟨-, ⟨start, hstart, hexact⟩, -⟩ := exact_issueBy (.ofSeconds Instant.lastSecond) "user-1"
    "accounts" ["USER", "USER"] ⟨999999999⟩
  exact ⟨_, start, hissue, hstart, hexact _ hissue⟩

/-- Not at every reading claims are issued whose end a timestamp can hold: a second before 1970 the
clock cannot be read. -/
theorem not_exact_before_1970 :
    ∃ start, IsGreatest {n : ℤ | Instant.second ∣ n ∧ n ≤ (Instant.ofSeconds (-1)).nanos} start ∧
      Instant.firstSecond * Instant.second ≤ start + (Span.ofSeconds 3600).nanos ∧
      start + (Span.ofSeconds 3600).nanos < (Instant.lastSecond + 1) * Instant.second ∧
      issueBy (.ofSeconds (-1)) "user-1" "accounts" ["USER"] (.ofSeconds 3600) =
        .error "system time before Unix epoch: SystemTimeError(1s)" :=
  ⟨_, Instant.isGreatest_floorSecond (.ofSeconds (-1)), by decide, by decide, by decide⟩

end Claims

/-! ### Claims that may be signed -/

/-- An engine finds fault with a claim exactly if the check of the claims does. -/
theorem Engine.generate_eq_invalidClaim_iff {e : Engine} {keys : KeyStore} {salt : Octets}
    {c : Claims} {claim value : String} :
    e.generate keys salt c = .error (.invalidClaim claim value) ↔
      c.check = .error (.invalidClaim claim value) := by
  rw [generate]
  cases c.check with
  | error err => simp
  | ok u =>
    refine iff_of_false ?_ fun h => by cases h
    cases keys.lookup e.activeKid with
    | error err => simp
    | ok key =>
      simp only
      split <;> simp

namespace Claims

variable {c : Claims}

/-- Claims that end within a second, and have no other fault so far, are refused for their end. -/
theorem check_of_fraction (hsubject : Text.isBlankText c.subject = false)
    (hstart : c.issuedAt.subsecond = 0) (hend : c.expiresAt.subsecond ≠ 0) :
    c.check = .error (.invalidClaim "exp" (c.expiresAt.rfc3339 "+00:00")) := by
  rw [check, if_neg (by simp [hsubject]), if_neg (by simp [hstart]), if_pos hend]

/-- Claims that are issued to somebody, for a second at least, start on a whole second and end after
it, but they end on a whole second only if their span is one of whole seconds. Exactly then no
engine finds fault with them; otherwise every engine refuses their end. -/
theorem signable_issueBy {reading : Instant} {subject issuer : String} {roles : List String}
    {ttl : Span} (hsubject : Text.isBlankText subject = false) (httl : Instant.second ≤ ttl.nanos)
    (h : issueBy reading subject issuer roles ttl = .ok (.ok c)) :
    c.issuedAt.subsecond = 0 ∧ c.issuedAt.nanos < c.expiresAt.nanos ∧
      (c.expiresAt.subsecond = 0 ↔ Instant.second ∣ ttl.nanos) ∧
      ∀ (e : Engine) (keys : KeyStore) (salt : Octets),
        (Instant.second ∣ ttl.nanos → ∀ claim value,
          e.generate keys salt c ≠ .error (.invalidClaim claim value)) ∧
        (¬ Instant.second ∣ ttl.nanos →
          e.generate keys salt c =
            .error (.invalidClaim "exp" (c.expiresAt.rfc3339 "+00:00"))) := by
  obtain ⟨-, hissue⟩ := issueBy_eq_ok_iff.1 h
  obtain ⟨-, rfl⟩ := issue_eq_ok_iff.1 hissue
  have hstart : reading.floorSecond.subsecond = 0 := Instant.subsecond_ofSeconds _
  have hordered : reading.floorSecond.nanos < (reading.floorSecond.add ttl).nanos := by
    simp only [Instant.add, Instant.second] at httl ⊢
    omega
  -- The start is on a whole second, so the end is if the span is.
  have hend : (reading.floorSecond.add ttl).subsecond = 0 ↔ Instant.second ∣ ttl.nanos := by
    rw [Instant.subsecond_eq_zero_iff, Instant.add]
    exact Int.dvd_add_right (Instant.subsecond_eq_zero_iff.1 hstart)
  refine ⟨hstart, hordered, hend, fun e keys salt => ⟨fun hwhole claim value hfault => ?_,
    fun hfraction => ?_⟩⟩
  · have hcheck := Engine.generate_eq_invalidClaim_iff.1 hfault
    cases hcheck.symm.trans (check_eq_ok_iff.2 ⟨hsubject, hstart, hend.2 hwhole, hordered⟩)
  · refine Engine.generate_eq_invalidClaim_iff.2 (check_of_fraction hsubject hstart ?_)
    exact fun hwhole => hfraction (hend.1 hwhole)

theorem signable_issueBy_hour :
    ∃ c, issueBy ⟨1700000000123456789⟩ "user-1" "accounts" ["USER"] (.ofSeconds 3600) = .ok (.ok c) ∧
      c.issuedAt.subsecond = 0 ∧ c.expiresAt.subsecond = 0 ∧
      ∀ claim value, (Engine.sample none).generate Engine.sampleKeys [] c ≠
        .error (.invalidClaim claim value) := by
  have hissue : issueBy ⟨1700000000123456789⟩ "user-1" "accounts" ["USER"] (.ofSeconds 3600) =
      .ok (.ok ⟨"user-1", "accounts", .ofSeconds 1700000000, .ofSeconds 1700003600,
        .ofList ["USER"]⟩) := by decide
  obtain ⟨hstart, -, hend, hsign⟩ := signable_issueBy (by decide) (by decide) hissue
  have hwhole : Instant.second ∣ (Span.ofSeconds 3600).nanos := by decide
  exact ⟨_, hissue, hstart, hend.2 hwhole, (hsign (Engine.sample none) Engine.sampleKeys []).1 hwhole⟩

/-- Claims of a second and a half are issued to somebody and end within a second, so no engine
signs them. -/
theorem not_signable_of_fraction :
    ∃ c, issueBy (.ofSeconds 1700000000) "user-1" "accounts" ["USER"] ⟨1500000000⟩ = .ok (.ok c) ∧
      c.expiresAt.subsecond = 500000000 ∧
      ∀ (e : Engine) (keys : KeyStore) (salt : Octets), e.generate keys salt c =
        .error (.invalidClaim "exp" "2023-11-14T22:13:21.500+00:00") := by
  refine ⟨⟨"user-1", "accounts", .ofSeconds 1700000000, ⟨1700000001500000000⟩, .ofList ["USER"]⟩,
    by decide, by decide, fun e keys salt => Engine.generate_eq_invalidClaim_iff.2 ?_⟩
  exact check_of_fraction (by decide) (by decide) (by decide)

end Claims

end AccountService.Auth
