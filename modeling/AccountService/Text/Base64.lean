import AccountService.Text.Utf8

/-!
# Base 64

Octets are written three at a time as four digits of six bits. The two variants in use
differ in their last two digits and in whether the last group is padded with `=`. Reading
is canonical: the unused bits of the last digit are zero and padding is neither missing
nor superfluous, so a list of octets has exactly one written form.

## Main definitions

* `Base64.Variant`, `Base64.standard`, `Base64.urlSafe` — the two variants
* `Base64.encode`, `Base64.decode?` — writing and reading
-/

namespace AccountService.Base64

/-- A variant fixes the digits for 62 and 63 and whether the last group is padded. -/
structure Variant where
  /-- The digit for 62. -/
  digit62 : Char
  /-- The digit for 63. -/
  digit63 : Char
  /-- Whether the last group is filled up to four characters with `=`. -/
  padded : Bool

/-- The alphabet of credentials and key files: `+`, `/`, padded. -/
def standard : Variant := ⟨'+', '/', true⟩

/-- The alphabet of tokens: `-`, `_`, never padded. -/
def urlSafe : Variant := ⟨'-', '_', false⟩

/-- The digit that stands for six bits. -/
def Variant.digit (v : Variant) (n : Nat) : Char :=
  if n < 26 then Char.ofNat (65 + n)
  else if n < 52 then Char.ofNat (97 + (n - 26))
  else if n < 62 then Char.ofNat (48 + (n - 52))
  else if n = 62 then v.digit62
  else v.digit63

/-- The six bits that a digit stands for. -/
def Variant.value? (v : Variant) (c : Char) : Option Nat :=
  let n := c.toNat
  if 65 ≤ n ∧ n ≤ 90 then some (n - 65)
  else if 97 ≤ n ∧ n ≤ 122 then some (n - 97 + 26)
  else if 48 ≤ n ∧ n ≤ 57 then some (n - 48 + 52)
  else if c = v.digit62 then some 62
  else if c = v.digit63 then some 63
  else none

/-- The six-bit groups of octets; a last, incomplete group is filled with zero bits. -/
def sextets : Octets → List Nat
  | [] => []
  | [a] => [a.toNat / 4, a.toNat % 4 * 16]
  | [a, b] => [a.toNat / 4, a.toNat % 4 * 16 + b.toNat / 16, b.toNat % 16 * 4]
  | a :: b :: c :: rest =>
    a.toNat / 4 :: (a.toNat % 4 * 16 + b.toNat / 16) :: (b.toNat % 16 * 4 + c.toNat / 64) ::
      (c.toNat % 64) :: sextets rest

/-- The octets of six-bit groups, provided the bits that fill the last group are zero. -/
def octets? : List Nat → Option Octets
  | [] => some []
  | [_] => none
  | [a, b] => if b % 16 = 0 then some [UInt8.ofNat (a * 4 + b / 16)] else none
  | [a, b, c] =>
    if c % 4 = 0 then
      some [UInt8.ofNat (a * 4 + b / 16), UInt8.ofNat (b % 16 * 16 + c / 4)]
    else none
  | a :: b :: c :: d :: rest =>
    (octets? rest).map fun tail =>
      UInt8.ofNat (a * 4 + b / 16) :: UInt8.ofNat (b % 16 * 16 + c / 4) ::
        UInt8.ofNat (c % 4 * 64 + d) :: tail

/-- How many `=` fill up the last group after `n` digits. -/
def padding (n : Nat) : Nat := (4 - n % 4) % 4

/-- The written form of octets. -/
def encode (v : Variant) (bs : Octets) : List Char :=
  let digits := (sextets bs).map v.digit
  if v.padded then digits ++ List.replicate (padding digits.length) '=' else digits

/-- The octets that a text writes, if it is the written form of some. -/
def decode? (v : Variant) (cs : List Char) : Option Octets :=
  let digits := if v.padded then cs.takeWhile (· != '=') else cs
  let fill := if v.padded then List.replicate (padding digits.length) '=' else []
  if cs = digits ++ fill then (digits.mapM v.value?).bind octets? else none

end AccountService.Base64
