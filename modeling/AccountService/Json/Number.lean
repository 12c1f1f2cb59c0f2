import AccountService.Text.Utf8
import AccountService.Text.Numeral

/-!
# Numbers in JSON documents

A number is read as the digits it is written with. It is an integer when it has neither
fraction nor exponent and fits 64 bits; every other number stands for a double, and one
beyond the range of doubles cannot be held.

## Main definitions

* `Json.Number` — a number as written
* `Json.Number.ofLexeme?` — the number grammar
* `Json.Number.int?` — the integer that a number is
* `Json.Number.isFinite` — whether a number can be held at all
* `Json.Number.stopsShort` — whether its reading stops before its last digit
-/

namespace AccountService.Json

/-- An exponent as written. -/
structure Exponent where
  /-- Whether a minus sign stands in front. -/
  negative : Bool
  digits : List Nat
  deriving DecidableEq, Repr

/-- A number as written: its digits before and after the point and its exponent. -/
structure Number where
  /-- Whether a minus sign stands in front. -/
  negative : Bool
  /-- The digits before the point. -/
  whole : List Nat
  /-- The digits after the point. -/
  fraction : List Nat
  /-- The exponent, if one is written. -/
  exponent : Option Exponent
  deriving DecidableEq, Repr

namespace Number

/-- The value of an ASCII digit. -/
def digit? (b : UInt8) : Option Nat :=
  if 48 ≤ b.toNat ∧ b.toNat ≤ 57 then some (b.toNat - 48) else none

/-- Whether an octet is an ASCII digit. -/
def isDigit (b : UInt8) : Bool := (digit? b).isSome

/-- The digits at the front of a list of octets, and what follows them. -/
def splitDigits (bs : Octets) : List Nat × Octets :=
  ((bs.takeWhile isDigit).filterMap digit?, bs.dropWhile isDigit)

/-- The number that digits write. -/
def ofDigits (ds : List Nat) : Nat := ds.foldl (fun n d => 10 * n + d) 0

/-- An exponent: `e` or `E`, a sign if wanted, at least one digit, and nothing else. -/
def exponent? : Octets → Option (Option Exponent)
  | [] => some none
  | b :: rest =>
    if b = 0x65 ∨ b = 0x45 then
      let (negative, body) : Bool × Octets :=
        match rest with
        | 0x2B :: body => (false, body)
        | 0x2D :: body => (true, body)
        | body => (false, body)
      match splitDigits body with
      | (d :: ds, []) => some (some ⟨negative, d :: ds⟩)
      | _ => none
    else none

/-- The value of an exponent. -/
def Exponent.value (e : Exponent) : Int :=
  if e.negative then -Int.ofNat (ofDigits e.digits) else Int.ofNat (ofDigits e.digits)

/-- The number that octets write: a minus sign if wanted, digits without a superfluous zero
in front, a fraction and an exponent if wanted. -/
def ofLexeme? (bs : Octets) : Option Number :=
  let (negative, body) : Bool × Octets :=
    match bs with
    | 0x2D :: body => (true, body)
    | body => (false, body)
  match splitDigits body with
  | ([], _) => none
  | (0 :: _ :: _, _) => none
  | (whole, 0x2E :: rest) =>
    match splitDigits rest with
    | ([], _) => none
    | (fraction, rest) => (exponent? rest).map fun e => ⟨negative, whole, fraction, e⟩
  | (whole, rest) => (exponent? rest).map fun e => ⟨negative, whole, [], e⟩

/-- Digits that still fit 64 bits are collected; of those before the point that do not, only
their count is kept. -/
def collectWhole : Nat × Nat → List Nat → Nat × Nat
  | acc, [] => acc
  | (n, dropped), d :: ds =>
    if dropped = 0 ∧ 10 * n + d < Nat.pow 2 64 then collectWhole (10 * n + d, 0) ds
    else collectWhole (n, dropped + 1) ds

/-- The integer that a number is. A zero with a minus sign is a double, as is an integer that
fits neither signed nor unsigned in 64 bits. -/
def int? (x : Number) : Option Int :=
  if x.fraction.isEmpty && x.exponent.isNone then
    match collectWhole (0, 0) x.whole with
    | (n, 0) =>
      if x.negative then
        if 0 < n ∧ n ≤ Nat.pow 2 63 then some (-Int.ofNat n) else none
      else some (Int.ofNat n)
    | _ => none
  else none

/-- Digits after the point are collected as long as they fit 64 bits. -/
def collectFraction : Nat × Nat → List Nat → Nat × Nat
  | acc, [] => acc
  | (n, taken), d :: ds =>
    if 10 * n + d < Nat.pow 2 64 then collectFraction (10 * n + d, taken + 1) ds else (n, taken)

/-- The leading digits of a number and the power of ten they are scaled by. -/
def scaled (x : Number) : Nat × Int :=
  let (n, dropped) := collectWhole (0, 0) x.whole
  let (n, taken) := collectFraction (n, 0) x.fraction
  (n, Int.ofNat dropped - Int.ofNat taken + (x.exponent.map Exponent.value).getD 0)

/-- A natural number rounded to 53 significant bits, a half to the even neighbour. -/
def round53 (n : Nat) : Nat :=
  if n < Nat.pow 2 53 then n
  else
    let unit := Nat.pow 2 (Nat.log2 n - 52)
    let q := n / unit
    let r := n % unit
    if 2 * r > unit ∨ (2 * r = unit ∧ q % 2 = 1) then (q + 1) * unit else q * unit

/-- Whether a number can be held as a double: its leading digits times the power of ten, each
rounded to a double, stay below the point where doubles end. -/
def isFinite (x : Number) : Bool :=
  if x.int?.isSome then true
  else
    let (n, e) := x.scaled
    if n = 0 then true
    else if e ≤ 0 then true
    else if 308 < e then false
    else decide (round53 n * round53 (Nat.pow 10 e.toNat) < Nat.pow 2 1024 - Nat.pow 2 970)

/-- What is left of the digits of an exponent after the one with which it passes 31 bits. -/
def afterOverflow : Nat → List Nat → List Nat
  | _, [] => []
  | n, d :: ds => if 10 * n + d < Nat.pow 2 31 then afterOverflow (10 * n + d) ds else ds

/-- Whether the reading of a number stops before its last digit: once an exponent without a
minus sign has passed 31 bits, the number is given up, unless its leading digits are zero. -/
def stopsShort (x : Number) : Bool :=
  match x.exponent with
  | some ⟨false, digits⟩ => x.scaled.1 != 0 && !(afterOverflow 0 digits).isEmpty
  | _ => false

end Number

end AccountService.Json
