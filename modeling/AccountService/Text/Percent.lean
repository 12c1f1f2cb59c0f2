import AccountService.Text.Utf8
import AccountService.Text.Hex

/-!
# Percent-encoding

In the path of a request `%` and two hexadecimal digits stand for an octet. A `%` that is
not followed by two digits stands for itself.

## Main definitions

* `Percent.decode` — the octets a percent-encoded text stands for
-/

namespace AccountService.Percent

/-- The value of an octet that is an ASCII hexadecimal digit. -/
def nibble? (b : UInt8) : Option Nat := Hex.value? (Char.ofNat b.toNat)

/-- The octets that a percent-encoded list of octets stands for. -/
def decode : Octets → Octets
  | [] => []
  | [a] => [a]
  | [a, b] => [a, b]
  | a :: b :: c :: rest =>
    if a = 0x25 then
      match nibble? b, nibble? c with
      | some hi, some lo => UInt8.ofNat (16 * hi + lo) :: decode rest
      | _, _ => a :: decode (b :: c :: rest)
    else a :: decode (b :: c :: rest)

end AccountService.Percent
