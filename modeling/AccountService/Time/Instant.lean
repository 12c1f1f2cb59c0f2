import AccountService.Text.Numeral

/-!
# Instants

An instant is a whole number of nanoseconds since the start of 1970, before or after it. A
timestamp can hold the instants of the years -262143 to 262142. Instants are written as
calendar dates with the time of day in UTC.

## Main definitions

* `Instant` — a point in time
* `Instant.isTimestamp` — the instants that a timestamp can hold
* `Instant.floorSecond` — the last whole second
* `Instant.rfc3339` — the written form
-/

namespace AccountService

/-- A point in time, in nanoseconds since the start of 1970. -/
structure Instant where
  /-- Nanoseconds since the start of 1970. -/
  nanos : Int
  deriving DecidableEq, Repr, Inhabited

namespace Instant

/-- The nanoseconds of a second. -/
def second : Int := 1000000000

/-- The instant a whole number of seconds after the start of 1970. -/
def ofSeconds (s : Int) : Instant := ⟨s * second⟩

/-- The whole seconds since the start of 1970, rounded towards the past. -/
def seconds (t : Instant) : Int := t.nanos / second

/-- The nanoseconds since the last whole second. -/
def subsecond (t : Instant) : Nat := (t.nanos % second).toNat

/-- The last whole second. -/
def floorSecond (t : Instant) : Instant := ofSeconds t.seconds

/-- The first second that a timestamp can hold. -/
def firstSecond : Int := -8334601228800

/-- The last second that a timestamp can hold. -/
def lastSecond : Int := 8210266876799

/-- Whether a timestamp can hold an instant. -/
def isTimestamp (t : Instant) : Bool :=
  decide (firstSecond ≤ t.seconds) && decide (t.seconds ≤ lastSecond)

/-- A day of the calendar. -/
structure Date where
  year : Int
  month : Nat
  day : Nat
  deriving DecidableEq, Repr

/-- The day a number of days after the start of 1970. Years are counted from March, so that
the day added by a leap year comes last, and in cycles of four hundred. -/
def Date.ofDays (days : Int) : Date :=
  let shifted := days + 719468
  let cycle := shifted / 146097
  let dayOfCycle := (shifted % 146097).toNat
  let yearOfCycle :=
    (dayOfCycle - dayOfCycle / 1460 + dayOfCycle / 36524 - dayOfCycle / 146096) / 365
  let dayOfYear := dayOfCycle - (365 * yearOfCycle + yearOfCycle / 4 - yearOfCycle / 100)
  let fromMarch := (5 * dayOfYear + 2) / 153
  let month := if fromMarch < 10 then fromMarch + 3 else fromMarch - 9
  let year := Int.ofNat yearOfCycle + cycle * 400
  ⟨if month ≤ 2 then year + 1 else year, month, dayOfYear - (153 * fromMarch + 2) / 5 + 1⟩

/-- A year in at least four digits; outside 0 to 9999 with its sign. -/
def yearChars (y : Int) : List Char :=
  if 0 ≤ y ∧ y ≤ 9999 then Numeral.padded 4 y.toNat
  else (if y < 0 then '-' else '+') :: Numeral.padded 4 y.natAbs

/-- The fraction of a second in no, three, six or nine digits, as few as are exact. -/
def fractionChars (nanos : Nat) : List Char :=
  if nanos = 0 then []
  else if nanos % 1000000 = 0 then '.' :: Numeral.padded 3 (nanos / 1000000)
  else if nanos % 1000 = 0 then '.' :: Numeral.padded 6 (nanos / 1000)
  else '.' :: Numeral.padded 9 nanos

/-- The date and the time of day in UTC, closed by `zone`. -/
def rfc3339 (zone : String) (t : Instant) : String :=
  let date := Date.ofDays (t.seconds / 86400)
  let time := (t.seconds % 86400).toNat
  String.ofList <|
    yearChars date.year ++ '-' :: Numeral.padded 2 date.month ++ '-' ::
      Numeral.padded 2 date.day ++ 'T' :: Numeral.padded 2 (time / 3600) ++ ':' ::
      Numeral.padded 2 (time / 60 % 60) ++ ':' :: Numeral.padded 2 (time % 60) ++
      fractionChars t.subsecond ++ zone.toList

end Instant

end AccountService
