import AccountService.Time.Instant

/-!
# Spans of time

A span is a signed number of nanoseconds. It has an ISO 8601 form, in which it is named when
it takes a timestamp out of range, and a short form with the largest fitting unit.

## Main definitions

* `Span` — a signed length of time
* `Span.iso8601` — the form `PT3600S`
* `Span.brief` — the form `1.5s`
* `Instant.add` — the instant a span later
-/

namespace AccountService

/-- A signed length of time. -/
structure Span where
  /-- Nanoseconds. -/
  nanos : Int
  deriving DecidableEq, Repr, Inhabited

/-- The instant a span later. -/
def Instant.add (t : Instant) (d : Span) : Instant := ⟨t.nanos + d.nanos⟩

namespace Span

/-- A span of whole seconds. -/
def ofSeconds (s : Int) : Span := ⟨s * Instant.second⟩

/-- The fraction `n / 10 ^ width` after a point, without trailing zeros; nothing for zero. -/
def fraction (width n : Nat) : List Char :=
  if n = 0 then []
  else '.' :: ((Numeral.padded width n).reverse.dropWhile (· == '0')).reverse

/-- The ISO 8601 form in seconds, with a minus sign in front where needed. -/
def iso8601 (d : Span) : String :=
  if d.nanos = 0 then "P0D"
  else
    let n := d.nanos.natAbs
    String.ofList <|
      (if d.nanos < 0 then ['-'] else []) ++ 'P' :: 'T' :: Numeral.ofNat (n / 1000000000) ++
        fraction 9 (n % 1000000000) ++ ['S']

/-- The length of a span in the largest of four units that it reaches. -/
def brief (d : Span) : String :=
  let n := d.nanos.natAbs
  let form (unit width : Nat) (name : String) : List Char :=
    Numeral.ofNat (n / unit) ++ fraction width (n % unit) ++ name.toList
  String.ofList <|
    if 1000000000 ≤ n then form 1000000000 9 "s"
    else if 1000000 ≤ n then form 1000000 6 "ms"
    else if 1000 ≤ n then form 1000 3 "µs"
    else form 1 0 "ns"

end Span

end AccountService
