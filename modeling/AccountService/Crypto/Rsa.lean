import AccountService.Crypto.Digest

/-!
# RSA keys

The numbers of a key pair, the conditions under which they belong together, and the two
operations on numbers that signatures are made of.

## Main definitions

* `Rsa.PublicKey`, `Rsa.KeyPair` — the numbers of a key
* `Rsa.KeyPair.isConsistent` — the numbers belong together
* `Rsa.KeyPair.canSign` — the key is of a size and shape that may sign
* `Rsa.PublicKey.canVerify` — the key is of a size that may verify
* `Rsa.power` — modular exponentiation
-/

namespace AccountService.Rsa

/-- The number of binary digits. -/
def bitLength (n : Nat) : Nat := if n = 0 then 0 else Nat.log2 n + 1

/-- The power of a number modulo `m`, by repeated squaring. -/
def power (m b e : Nat) : Nat :=
  if h : e = 0 then 1 % m
  else
    have : e / 2 < e := Nat.div_lt_self (Nat.pos_of_ne_zero h) (by decide)
    let r := power m (b * b % m) (e / 2)
    if e % 2 = 1 then b * r % m else r
termination_by e

/-- The public numbers of a key. -/
structure PublicKey where
  /-- The modulus. -/
  modulus : Nat
  /-- The public exponent. -/
  exponent : Nat
  deriving DecidableEq, Repr

/-- The numbers of a key pair. -/
structure KeyPair where
  /-- The public numbers. -/
  public_ : PublicKey
  /-- The private exponent. -/
  private_ : Nat
  /-- The first prime factor of the modulus. -/
  prime1 : Nat
  /-- The second prime factor of the modulus. -/
  prime2 : Nat
  deriving DecidableEq, Repr

/-- The length of a key's signatures in octets. -/
def PublicKey.size (k : PublicKey) : Nat := (bitLength k.modulus + 7) / 8

/-- Whether the numbers belong together: the modulus is odd, of at most 4096 bits and the
product of the primes, the public exponent is odd and between 2 and `2 ^ 33`, the exponents
undo each other modulo each prime less one, and the second prime has an inverse modulo the
first. -/
def KeyPair.isConsistent (k : KeyPair) : Bool :=
  let n := k.public_.modulus
  let e := k.public_.exponent
  bitLength n ≤ 4096 && n % 2 == 1 && e < n && e % 2 == 1 && 2 ≤ e && e < Nat.pow 2 33 &&
    2 ≤ k.prime1 && 2 ≤ k.prime2 && k.prime1 * k.prime2 == n &&
    e * k.private_ % (k.prime1 - 1) == 1 && e * k.private_ % (k.prime2 - 1) == 1 &&
    Nat.gcd k.prime1 k.prime2 == 1

/-- Whether a key may sign: a modulus of 2048 bits, rounded up to whole octets, to 4096 bits,
a public exponent of at least 65537, primes of half the length of the modulus, in whole units
of 512 bits, and a private exponent that is longer than the primes and below the modulus. -/
def KeyPair.canSign (k : KeyPair) : Bool :=
  let bits := bitLength k.public_.modulus
  let half := (bits + 1) / 2
  2048 ≤ 8 * k.public_.size && bits ≤ 4096 && 65537 ≤ k.public_.exponent && half % 512 == 0 &&
    bitLength k.prime1 == half && bitLength k.prime2 == half &&
    half < bitLength k.private_ && k.private_ < k.public_.modulus

/-- Whether a key may verify: a modulus of 2048 bits, rounded up to whole octets, to 8192
bits. -/
def PublicKey.canVerify (k : PublicKey) : Bool :=
  2048 ≤ 8 * k.size && bitLength k.modulus ≤ 8192

end AccountService.Rsa
