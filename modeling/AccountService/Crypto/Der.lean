import AccountService.Crypto.Rsa

/-!
# Key structures

A private key is stored as nested fields, each a tag, a length and contents. Lengths and
numbers have one form only: no longer than needed. Two structures hold an RSA key: its bare
numbers, and a wrapper that names the algorithm in front of them.

## Main definitions

* `Der.fieldWith?`, `Der.field?` — a field and what follows it
* `Der.natural?` — the natural number that contents write
* `Der.isTrailer` — what may follow the key in a wrapper
* `Der.bareKey?`, `Der.wrappedKey?` — the key pair that octets store
-/

namespace AccountService.Der

/-- A length in its shortest form, and what follows it. -/
def length? : Octets → Option (Nat × Octets)
  | [] => none
  | b :: rest =>
    if b.toNat < 0x80 then some (b.toNat, rest)
    else
      let k := b.toNat - 0x80
      let digits : Octets := rest.take k
      let n := digits.toNat
      if 1 ≤ k ∧ k ≤ 4 ∧ digits.length = k ∧ 0x80 ≤ n ∧ Nat.pow 256 (k - 1) ≤ n then
        some (n, rest.drop k)
      else none

/-- The contents of a field whose tag is among those asked for, and what follows it. -/
def fieldWith? (asked : UInt8 → Bool) : Octets → Option (Octets × Octets)
  | [] => none
  | b :: rest =>
    if asked b then
      match length? rest with
      | some (n, body) => if n ≤ body.length then some (body.take n, body.drop n) else none
      | none => none
    else none

/-- The contents of the field of a tag, and what follows it. -/
def field? (tag : UInt8) : Octets → Option (Octets × Octets) := fieldWith? (· == tag)

/-- The natural number that contents write in their shortest form. -/
def natural? : Octets → Option Nat
  | [] => none
  | [b] => if b.toNat < 0x80 then some b.toNat else none
  | b :: c :: rest =>
    if b = 0 then if c.toNat < 0x80 then none else some (Octets.toNat (c :: rest))
    else if b.toNat < 0x80 then some (Octets.toNat (b :: c :: rest))
    else none

/-- A natural number in a field of its own, and what follows it. -/
def naturalField? (bs : Octets) : Option (Nat × Octets) :=
  match field? 0x02 bs with
  | some (contents, rest) => (natural? contents).map (·, rest)
  | none => none

/-- So many natural numbers one after the other, and what follows them. -/
def naturals? : Nat → Octets → Option (List Nat × Octets)
  | 0, bs => some ([], bs)
  | k + 1, bs =>
    match naturalField? bs with
    | some (n, rest) =>
      match naturals? k rest with
      | some (ns, rest) => some (n :: ns, rest)
      | none => none
    | none => none

/-- The key pair that a bare structure stores: version zero and eight numbers, of which the
last three follow from the others and are computed anew when needed. -/
def bareKey? (bs : Octets) : Option Rsa.KeyPair :=
  match field? 0x30 bs with
  | some (contents, []) =>
    -- The last three numbers are read so that they are there, and forgotten.
    match naturals? 9 contents with
    | some ([0, n, e, d, p, q, _, _, _], []) =>
      let key : Rsa.KeyPair := ⟨⟨n, e⟩, d, p, q⟩
      if key.isConsistent then some key else none
    | _ => none
  | _ => none

/-- The name of the RSA algorithm, with its empty parameters. -/
def algorithmName : Octets :=
  [0x06, 0x09, 0x2A, 0x86, 0x48, 0x86, 0xF7, 0x0D, 0x01, 0x01, 0x01, 0x05, 0x00]

/-- Whether an octet is the tag of a field: of a kind that is known, or of a kind that each
use gives a meaning of its own, where numbers from 31 on do not fit. -/
def isTag (b : UInt8) : Bool :=
  [0x01, 0x02, 0x03, 0x04, 0x05, 0x06, 0x09, 0x0A, 0x0C, 0x12, 0x13, 0x14, 0x15, 0x16, 0x17,
    0x18, 0x1A, 0x1D, 0x30, 0x31].contains b ||
    (0x40 ≤ b.toNat && b.toNat % 32 != 31)

/-- Whether an octet is the tag of an extension that holds a field of its own. -/
def isExtensionTag (b : UInt8) : Bool := 0xA0 ≤ b.toNat && b.toNat ≤ 0xBE

/-- Skips the extensions of number zero, at most `fuel` of them, whatever they hold. -/
def skipAttributes? : Nat → Octets → Option Octets
  | 0, bs => some bs
  | _, [] => some []
  | fuel + 1, b :: bs =>
    if b = 0x80 ∨ b = 0xA0 then
      match field? b (b :: bs) with
      | some (_, rest) => skipAttributes? fuel rest
      | none => none
    else some (b :: bs)

/-- Whether a public key follows, in whole octets, and what stands after it. Its tag says that
the octets are its own, not a field around it. -/
def publicKey? : Octets → Option (Bool × Octets)
  | [] => some (false, [])
  | b :: bs =>
    if b = 0x81 then
      match field? 0x81 (b :: bs) with
      | some (0 :: _, rest) => some (true, rest)
      | _ => none
    else if b = 0xA1 then none
    else some (false, b :: bs)

/-- Whether octets are a sequence of extensions, at most `fuel` of them, with one field in
each. -/
def areExtensions : Nat → Octets → Bool
  | _, [] => true
  | 0, _ => false
  | fuel + 1, bs =>
    match fieldWith? isExtensionTag bs with
    | some (contents, rest) =>
      match fieldWith? isTag contents with
      | some (_, []) => areExtensions fuel rest
      | _ => false
    | none => false

/-- Whether what follows the key of a wrapper may follow it: a public key just where the
version is one, among extensions that are looked over and not kept. -/
def isTrailer (version : Nat) (bs : Octets) : Bool :=
  match (skipAttributes? bs.length bs).bind publicKey? with
  | some (hasPublic, rest) => hasPublic == (version == 1) && areExtensions rest.length rest
  | none => false

/-- The key pair that a wrapper stores, in version zero or one. -/
def wrappedKey? (bs : Octets) : Option Rsa.KeyPair :=
  match field? 0x30 bs with
  | some (contents, []) =>
    match naturalField? contents with
    | some (version, rest) =>
      match field? 0x30 rest with
      | some (name, rest) =>
        if version ≤ 1 ∧ name = algorithmName then
          match field? 0x04 rest with
          | some (key, rest) => if isTrailer version rest then bareKey? key else none
          | none => none
        else none
      | none => none
    | none => none
  | _ => none

end AccountService.Der
