/-!
# Decimal numerals

A numeral is an optional sign and at least one ASCII digit. It is read against the range
of the quantity it sets; a numeral of any length outside the range is refused and never
wrapped.

## Main definitions

* `Numeral.Error`, `Numeral.Error.message` — why a numeral is refused
* `Numeral.readNat`, `Numeral.readInt` — reading without and with a minus sign
* `Numeral.ofNat`, `Numeral.ofInt` — the shortest numeral of a number
-/

namespace AccountService.Numeral

/-- Why a text is no numeral of the wanted range. -/
inductive Error where
  /-- There is nothing to read. -/
  | empty
  /-- A character is neither a digit nor a sign in first place, or a sign stands alone. -/
  | invalidDigit
  /-- The number is above the range. -/
  | tooLarge
  /-- The number is below the range. -/
  | tooSmall
  deriving DecidableEq, Repr

/-- The wording of a refusal. -/
def Error.message : Error → String
  | .empty => "cannot parse integer from empty string"
  | .invalidDigit => "invalid digit found in string"
  | .tooLarge => "number too large to fit in target type"
  | .tooSmall => "number too small to fit in target type"

/-- The value of a decimal digit. -/
def digit? (c : Char) : Option Nat :=
  if 48 ≤ c.toNat ∧ c.toNat ≤ 57 then some (c.toNat - 48) else none

/-- Reads digits from the left on top of `acc`. The first character that is no digit, or
that takes the number above `bound`, decides; at one and the same character the missing
digit does. -/
def digits (bound : Nat) (beyond : Error) : Nat → List Char → Except Error Nat
  | acc, [] => .ok acc
  | acc, c :: rest =>
    match digit? c with
    | none => .error .invalidDigit
    | some d =>
      if acc * 10 + d ≤ bound then digits bound beyond (acc * 10 + d) rest else .error beyond

/-- Reads at least one digit. -/
def unsigned (bound : Nat) (beyond : Error) : List Char → Except Error Nat
  | [] => .error .invalidDigit
  | cs => digits bound beyond 0 cs

/-- Reads a number from zero to `bound`; only a plus sign may stand in front. -/
def readNat (bound : Nat) (s : String) : Except Error Nat :=
  match s.toList with
  | [] => .error .empty
  | '+' :: rest => unsigned bound .tooLarge rest
  | cs => unsigned bound .tooLarge cs

/-- Reads a number from `-(bound + 1)` to `bound`; either sign may stand in front. -/
def readInt (bound : Nat) (s : String) : Except Error Int :=
  match s.toList with
  | [] => .error .empty
  | '+' :: rest => (unsigned bound .tooLarge rest).map Int.ofNat
  | '-' :: rest => (unsigned (bound + 1) .tooSmall rest).map fun n => -Int.ofNat n
  | cs => (unsigned bound .tooLarge cs).map Int.ofNat

/-- The shortest numeral of a natural number. -/
def ofNat (n : Nat) : List Char := Nat.toDigits 10 n

/-- The shortest numeral of an integer. -/
def ofInt : Int → List Char
  | .ofNat n => ofNat n
  | .negSucc n => '-' :: ofNat (n + 1)

/-- A natural number in at least `width` digits, filled with zeros on the left. -/
def padded (width n : Nat) : List Char :=
  let ds := ofNat n
  List.replicate (width - ds.length) '0' ++ ds

end AccountService.Numeral
