import AccountService.Text.Hex
import AccountService.Entropy

/-!
# Identifiers

Accounts and requests are identified by 128-bit numbers. They are written as groups of
hexadecimal digits, and read from that form, from the digits alone, in braces, or after
`urn:uuid:`.

## Main definitions

* `Uuid` — an identifier
* `Uuid.text`, `Uuid.simple`, `Uuid.urn`, `Uuid.braced` — its written forms, of which it is shown
  in the first
* `Uuid.parse?` — the reading of all of them
* `Uuid.draw` — a random identifier
-/

namespace AccountService

/-- A 128-bit identifier. -/
structure Uuid where
  bits : BitVec 128
  deriving DecidableEq, Repr, Inhabited

namespace Uuid

/-- The identifier of no request. -/
def nil : Uuid := ⟨0⟩

/-- The thirty-two digits of an identifier. -/
def digits (u : Uuid) : List Char := Hex.fixed 32 u.bits.toNat

/-- Digits cut into the five groups of the written form. -/
def hyphenate (ds : List Char) : List Char :=
  ds.take 8 ++ '-' :: ((ds.drop 8).take 4 ++ '-' :: ((ds.drop 12).take 4 ++
    '-' :: ((ds.drop 16).take 4 ++ '-' :: ds.drop 20)))

/-- The written form in lower case. -/
def text (u : Uuid) : String := String.ofList (hyphenate u.digits)

/-- The form of the digits alone. -/
def simple (u : Uuid) : String := String.ofList u.digits

/-- The form of a name in the space of identifiers. -/
def urn (u : Uuid) : String := "urn:uuid:" ++ u.text

/-- The form in braces. -/
def braced (u : Uuid) : String := "\x7b" ++ u.text ++ "\x7d"

/-- The identifier that thirty-two digits write. -/
def ofDigits? (ds : List Char) : Option Uuid :=
  if ds.length = 32 then (Hex.read? ds).map fun n => ⟨BitVec.ofNat 128 n⟩ else none

/-- The identifier that five groups of digits write. -/
def ofGroups? (cs : List Char) : Option Uuid :=
  let ds := cs.filter (· != '-')
  if hyphenate ds = cs then ofDigits? ds else none

/-- The identifier that a text denotes in any of its forms. -/
def parse? (s : String) : Option Uuid :=
  let cs := s.toList
  match ofDigits? cs with
  | some u => some u
  | none =>
    match cs with
    | '\x7b' :: inner => if inner.getLast? = some '\x7d' then ofGroups? inner.dropLast else none
    | _ =>
      let urn := "urn:uuid:".toList
      if urn.isPrefixOf cs then ofGroups? (cs.drop urn.length) else ofGroups? cs

/-- The version that an identifier declares. -/
def version (u : Uuid) : Nat := (u.bits.toNat >>> 76) % 16

/-- The identifier of version four that sixteen random octets make. -/
def ofRandom (bs : Octets) : Uuid :=
  let n := BitVec.ofNat 128 bs.toNat
  let kept := ~~~((0xF#128 <<< 76) ||| (0x3#128 <<< 62))
  ⟨(n &&& kept) ||| (0x4#128 <<< 76) ||| (0x2#128 <<< 62)⟩

/-- A random identifier. -/
def draw (e : Entropy) : Uuid × Entropy :=
  let (bs, e) := e.take 16
  (ofRandom bs, e)

end Uuid

end AccountService
