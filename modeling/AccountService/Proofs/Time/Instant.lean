import AccountService.Time.Clock
import Mathlib.Algebra.Group.Int.Defs
import Mathlib.Algebra.Group.Nat.Defs
import Mathlib.Order.Bounds.Defs

/-!
# Whole seconds

An instant on a whole second and its number of seconds determine each other, and the seconds
that a timestamp can hold fit into 64 bits. A clock can be read from 1970 on, as long as a
timestamp can hold its reading.

## Main statements

* `Instant.ofSeconds_seconds` — an instant on a whole second is given by its seconds
* `Instant.isTimestamp_iff` — the nanoseconds that a timestamp can hold
* `Instant.isGreatest_floorSecond` — the last whole second is a floor
* `Instant.seconds_bounds` — the seconds of a timestamp fit into 64 bits
* `Clock.read_eq_ok_iff` — when a clock can be read
-/

namespace AccountService

namespace Instant

@[simp] theorem seconds_ofSeconds (s : Int) : (ofSeconds s).seconds = s := by
  simp only [ofSeconds, seconds, second]
  omega

@[simp] theorem subsecond_ofSeconds (s : Int) : (ofSeconds s).subsecond = 0 := by
  simp only [ofSeconds, subsecond, second]
  omega

/-- An instant on a whole second is given by its seconds. -/
theorem ofSeconds_seconds {t : Instant} (h : t.subsecond = 0) : ofSeconds t.seconds = t := by
  obtain ⟨n⟩ := t
  simp only [subsecond, second] at h
  simp only [ofSeconds, seconds, second]
  congr 1
  omega

/-- A second is reached exactly if its first nanosecond is. -/
theorem le_seconds_iff {s : Int} {t : Instant} : s ≤ t.seconds ↔ s * second ≤ t.nanos := by
  simp only [seconds, second]
  omega

/-- A second is not passed exactly if the first nanosecond after it is not reached. -/
theorem seconds_le_iff {s : Int} {t : Instant} :
    t.seconds ≤ s ↔ t.nanos < (s + 1) * second := by
  simp only [seconds, second]
  omega

/-- What is not later after a shift by whole seconds is not later in whole seconds. -/
theorem seconds_sub_le {t t' : Instant} {s s' : Int}
    (h : t.nanos - s * second ≤ t'.nanos - s' * second) : t.seconds - s ≤ t'.seconds - s' := by
  simp only [seconds, second] at *
  omega

/-- A timestamp holds the nanoseconds from the first of its first second to the last of its last
one. -/
theorem isTimestamp_iff {t : Instant} :
    t.isTimestamp = true ↔
      firstSecond * second ≤ t.nanos ∧ t.nanos < (lastSecond + 1) * second := by
  rw [isTimestamp, Bool.and_eq_true, decide_eq_true_eq, decide_eq_true_eq, le_seconds_iff,
    seconds_le_iff]

/-- An instant is on a whole second exactly if its nanoseconds are a multiple of a second's. -/
theorem subsecond_eq_zero_iff {t : Instant} : t.subsecond = 0 ↔ second ∣ t.nanos := by
  simp only [subsecond, second]
  omega

/-- The last whole second is the greatest one that is not after the instant, before 1970 too. -/
theorem isGreatest_floorSecond (t : Instant) :
    IsGreatest {n : Int | second ∣ n ∧ n ≤ t.nanos} t.floorSecond.nanos := by
  simp only [floorSecond, ofSeconds, seconds, second]
  refine ⟨⟨Int.dvd_mul_left _ _, by omega⟩, ?_⟩
  rintro n ⟨⟨k, rfl⟩, hle⟩
  omega

/-- The seconds of a timestamp fit into 64 bits. -/
theorem seconds_bounds {t : Instant} (h : t.isTimestamp = true) :
    -2 ^ 63 ≤ t.seconds ∧ t.seconds < 2 ^ 63 := by
  rw [isTimestamp, Bool.and_eq_true, decide_eq_true_eq, decide_eq_true_eq, firstSecond,
    lastSecond] at h
  omega

end Instant

/-- A clock can be read from 1970 on, as long as a timestamp can hold its reading. -/
theorem Clock.read_eq_ok_iff {reading now : Instant} :
    Clock.read reading = .ok now ↔
      reading = now ∧ 0 ≤ reading.nanos ∧ reading.isTimestamp = true := by
  rw [Clock.read]
  by_cases hepoch : reading.nanos < 0
  · simp [hepoch, Int.not_le.2 hepoch]
  · cases hrange : reading.isTimestamp <;> simp [hepoch, Int.not_lt.1 hepoch]

end AccountService
