import AccountService.Time.Span

/-!
# Reading the clock

The service takes its time from a clock that counts from the start of 1970. A reading before
that, or beyond what a timestamp can hold, is a fault of the machine, not an answer.

## Main definitions

* `Clock.read` — the present instant, or the report of the fault
-/

namespace AccountService.Clock

/-- The report of a clock that stands before 1970. -/
def faultMessage (reading : Instant) : String :=
  "system time before Unix epoch: SystemTimeError(" ++ (Span.mk reading.nanos).brief ++ ")"

/-- The report of a clock that stands beyond what a timestamp can hold. -/
def overrunMessage : String := "called `Option::unwrap()` on a `None` value"

/-- The present instant, or the report of the fault. -/
def read (reading : Instant) : Except String Instant :=
  if reading.nanos < 0 then .error (faultMessage reading)
  else if reading.isTimestamp then .ok reading
  else .error overrunMessage

end AccountService.Clock
