import AccountService.Crypto.Rsa

/-!
# RSA signatures

The two signature schemes of RSA over a digest. One pads the digest with fixed octets, so
that a message has one signature; the other mixes in a salt as long as the digest.

## Main definitions

* `Signature.Scheme` — a padding and a digest
* `Signature.sign`, `Signature.Fault` — the signature of a message under a key pair, and why there
  is none
* `Signature.verify` — whether a signature of a message is genuine
-/

namespace AccountService.Signature

/-- How a digest is padded before the key is applied. -/
inductive Padding where
  /-- Fixed octets (PKCS #1 version 1.5). -/
  | fixed
  /-- A salt and a mask (PSS). -/
  | salted
  deriving DecidableEq, Repr

/-- A signature scheme. -/
structure Scheme where
  /-- How the digest is padded. -/
  padding : Padding
  /-- The digest of the message. -/
  digest : Digest.Algorithm
  deriving DecidableEq, Repr

/-- The octets that name a digest algorithm in front of a digest. -/
def digestName : Digest.Algorithm → Octets
  | .sha256 =>
    [0x30, 0x31, 0x30, 0x0d, 0x06, 0x09, 0x60, 0x86, 0x48, 0x01, 0x65, 0x03, 0x04, 0x02, 0x01,
      0x05, 0x00, 0x04, 0x20]
  | .sha384 =>
    [0x30, 0x41, 0x30, 0x0d, 0x06, 0x09, 0x60, 0x86, 0x48, 0x01, 0x65, 0x03, 0x04, 0x02, 0x02,
      0x05, 0x00, 0x04, 0x30]
  | .sha512 =>
    [0x30, 0x51, 0x30, 0x0d, 0x06, 0x09, 0x60, 0x86, 0x48, 0x01, 0x65, 0x03, 0x04, 0x02, 0x03,
      0x05, 0x00, 0x04, 0x40]

/-- A message padded with fixed octets to `size` octets. -/
def padFixed (d : Digest.Algorithm) (size : Nat) (message : Octets) : Octets :=
  let tail := digestName d ++ d.hash message
  0x00 :: 0x01 :: (List.replicate (size - 3 - tail.length) 0xFF ++ 0x00 :: tail)

/-- Mask octets drawn from a seed. -/
def mask (d : Digest.Algorithm) (seed : Octets) (size : Nat) : Octets :=
  ((List.range ((size + d.size - 1) / d.size)).flatMap fun i =>
    d.hash (seed ++ Octets.ofNat 4 i)).take size

/-- Octets combined bit by bit. -/
def combine (xs ys : Octets) : Octets := xs.zipWith (· ^^^ ·) ys

/-- The digest that a salted signature carries. -/
def saltedDigest (d : Digest.Algorithm) (message salt : Octets) : Octets :=
  d.hash (List.replicate 8 0 ++ d.hash message ++ salt)

/-- The number a salted signature is made of: `bits` binary digits hold the masked salt, the
digest and a closing octet. -/
def padSalted (d : Digest.Algorithm) (bits : Nat) (message salt : Octets) : Nat :=
  let size := (bits + 7) / 8
  let h := saltedDigest d message salt
  let block := List.replicate (size - salt.length - d.size - 2) 0 ++ 0x01 :: salt
  let masked := combine block (mask d h block.length)
  (masked ++ h ++ [0xBC]).toNat % Nat.pow 2 bits

/-- Whether a number is the salted form of a message, whatever the salt. -/
def checkSalted (d : Digest.Algorithm) (bits : Nat) (message : Octets) (n : Nat) : Bool :=
  let size := (bits + 7) / 8
  let octets := Octets.ofNat size n
  let masked := octets.take (size - d.size - 1)
  let h := (octets.drop (size - d.size - 1)).take d.size
  let block := combine masked (mask d h masked.length)
  let salt := block.drop (block.length - d.size)
  n < Nat.pow 2 bits && padSalted d bits message salt == n

/-- The number that a signature of a message is made of. -/
def represent (s : Scheme) (key : Rsa.PublicKey) (salt message : Octets) : Nat :=
  match s.padding with
  | .fixed => (padFixed s.digest key.size message).toNat
  | .salted => padSalted s.digest (Rsa.bitLength key.modulus - 1) message salt

/-- Why a message is not signed. -/
inductive Fault where
  /-- The key is not one that may sign. -/
  | unfitKey
  /-- The public exponent does not undo what the private one did. -/
  | wrongResult
  deriving DecidableEq, Repr

/-- The wording of a fault. -/
def Fault.message : Fault → String
  | unfitKey => "RSA key invalid: not a key that may sign"
  | wrongResult => "RsaFailedSigning"

/-- The signature of a message. Only a salted scheme uses the salt. The result is tried out
before it is given away, so that a key whose numbers do not fit signs nothing. -/
def sign (s : Scheme) (key : Rsa.KeyPair) (salt message : Octets) : Except Fault Octets :=
  if key.canSign then
    let m := represent s key.public_ salt message
    let r := Rsa.power key.public_.modulus m key.private_
    if Rsa.power key.public_.modulus r key.public_.exponent = m then
      .ok (Octets.ofNat key.public_.size r)
    else .error .wrongResult
  else .error .unfitKey

/-- Whether the public exponent takes a number to a form of the message. -/
def isFormOf (s : Scheme) (key : Rsa.PublicKey) (message : Octets) (n : Nat) : Bool :=
  let m := Rsa.power key.modulus n key.exponent
  match s.padding with
  | .fixed => m == (padFixed s.digest key.size message).toNat
  | .salted => checkSalted s.digest (Rsa.bitLength key.modulus - 1) message m

/-- Whether a signature of a message is genuine: it is as long as the modulus, stands for a
smaller number, and that is taken to a form of the message. -/
def verify (s : Scheme) (key : Rsa.PublicKey) (message signature : Octets) : Bool :=
  key.canVerify && signature.length == key.size &&
    (signature.toNat < key.modulus && isFormOf s key message signature.toNat)

end AccountService.Signature
