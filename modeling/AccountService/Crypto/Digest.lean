import AccountService.Text.Utf8

/-!
# SHA-2 digests

The three members of the SHA-2 family that signatures use. They share one construction and
differ in the width of a word, the number of rounds, the rotation amounts, the initial state
and how much of the final state is kept. The constants are the leading fraction bits of
square and cube roots of the first primes, and are computed from that rule.

## Main definitions

* `Digest.Algorithm` — SHA-256, SHA-384 and SHA-512
* `Digest.Algorithm.hash` — the digest of a message
* `Octets.toNat`, `Octets.ofNat` — octets as a number, most significant first
-/

namespace AccountService

namespace Octets

/-- The number that octets write, most significant first. -/
def toNat (bs : Octets) : Nat := bs.foldl (fun n b => 256 * n + b.toNat) 0

/-- The last `width` octets of a number, most significant first. -/
def ofNat (width n : Nat) : Octets :=
  (List.range width).reverse.map fun i => UInt8.ofNat (n >>> (8 * i) % 256)

@[simp] theorem length_ofNat (width n : Nat) : (ofNat width n).length = width := by
  simp [ofNat]

/-- Octets cut into pieces of `n`, of one where `n` is zero; the last piece may be shorter. -/
def pieces (n : Nat) : Octets → List Octets
  | [] => []
  | b :: bs => (b :: bs.take (n - 1)) :: pieces n (bs.drop (n - 1))
termination_by bs => bs.length
decreasing_by simp only [List.length_drop, List.length_cons]; omega

theorem flatten_pieces (n : Nat) (bs : Octets) : (bs.pieces n).flatten = bs := by
  fun_induction pieces n bs with
  | case1 => rfl
  | case2 b bs ih => simp [ih]

end Octets

namespace Digest

/-- The greatest number below `2 ^ bits` whose `k`-th power is at most `n`. -/
def root (k n bits : Nat) : Nat :=
  (List.range bits).reverse.foldl
    (fun r i => if Nat.pow (r + Nat.pow 2 i) k ≤ n then r + Nat.pow 2 i else r) 0

/-- The first 64 bits of the fraction of the `k`-th root of `p`. -/
def rootFraction (k p : Nat) : Nat := root k (p * Nat.pow 2 (64 * k)) 72 % Nat.pow 2 64

/-- The first eighty primes. -/
def primes : List Nat :=
  [2, 3, 5, 7, 11, 13, 17, 19, 23, 29, 31, 37, 41, 43, 47, 53, 59, 61, 67, 71, 73, 79, 83, 89,
    97, 101, 103, 107, 109, 113, 127, 131, 137, 139, 149, 151, 157, 163, 167, 173, 179, 181,
    191, 193, 197, 199, 211, 223, 227, 229, 233, 239, 241, 251, 257, 263, 269, 271, 277, 281,
    283, 293, 307, 311, 313, 317, 331, 337, 347, 349, 353, 359, 367, 373, 379, 383, 389, 397,
    401, 409]

/-- The fractions of the cube roots of the first eighty primes. -/
def cubeRoots : List Nat := primes.map (rootFraction 3)

/-- The fractions of the square roots of the first sixteen primes. -/
def squareRoots : List Nat := (primes.take 16).map (rootFraction 2)

/-- The members of the family in use. -/
inductive Algorithm where
  | sha256
  | sha384
  | sha512
  deriving DecidableEq, Repr

namespace Algorithm

/-- The width of a word in bits. -/
def wordBits : Algorithm → Nat
  | sha256 => 32
  | _ => 64

/-- The length of a digest in octets. -/
def size : Algorithm → Nat
  | sha256 => 32
  | sha384 => 48
  | sha512 => 64

/-- The number of rounds. -/
def rounds : Algorithm → Nat
  | sha256 => 64
  | _ => 80

/-- The constants of the rounds: the top bits of the fractions of the cube roots. -/
def constants (d : Algorithm) : List (BitVec d.wordBits) :=
  (cubeRoots.take d.rounds).map fun n => BitVec.ofNat _ (n >>> (64 - d.wordBits))

/-- The initial state: the top bits of the fractions of the square roots, of the second eight
primes for the shortened digest. -/
def initial (d : Algorithm) : List (BitVec d.wordBits) :=
  let roots := if d = sha384 then squareRoots.drop 8 else squareRoots.take 8
  roots.map fun n => BitVec.ofNat _ (n >>> (64 - d.wordBits))

/-- The rotations that mix the first word of the state. -/
def mixFirst : Algorithm → Nat × Nat × Nat
  | sha256 => (2, 13, 22)
  | _ => (28, 34, 39)

/-- The rotations that mix the fifth word of the state. -/
def mixFifth : Algorithm → Nat × Nat × Nat
  | sha256 => (6, 11, 25)
  | _ => (14, 18, 41)

/-- The two rotations and the shift of the schedule word fifteen places back. -/
def scheduleNear : Algorithm → Nat × Nat × Nat
  | sha256 => (7, 18, 3)
  | _ => (1, 8, 7)

/-- The two rotations and the shift of the schedule word two places back. -/
def scheduleFar : Algorithm → Nat × Nat × Nat
  | sha256 => (17, 19, 10)
  | _ => (19, 61, 6)

end Algorithm

/-- Three rotations of a word, combined. -/
def rotate3 {w : Nat} (r : Nat × Nat × Nat) (x : BitVec w) : BitVec w :=
  x.rotateRight r.1 ^^^ x.rotateRight r.2.1 ^^^ x.rotateRight r.2.2

/-- Two rotations and a shift of a word, combined. -/
def rotate2 {w : Nat} (r : Nat × Nat × Nat) (x : BitVec w) : BitVec w :=
  x.rotateRight r.1 ^^^ x.rotateRight r.2.1 ^^^ (x >>> r.2.2)

/-- The eight words that are carried from block to block. -/
structure State (w : Nat) where
  a : BitVec w
  b : BitVec w
  c : BitVec w
  d : BitVec w
  e : BitVec w
  f : BitVec w
  g : BitVec w
  h : BitVec w

/-- The state that eight words make up; missing words are zero. -/
def State.ofList {w : Nat} (ws : List (BitVec w)) : State w :=
  ⟨ws.getD 0 0, ws.getD 1 0, ws.getD 2 0, ws.getD 3 0, ws.getD 4 0, ws.getD 5 0, ws.getD 6 0,
    ws.getD 7 0⟩

/-- The eight words of a state. -/
def State.toList {w : Nat} (s : State w) : List (BitVec w) :=
  [s.a, s.b, s.c, s.d, s.e, s.f, s.g, s.h]

namespace Algorithm

/-- The message schedule of a block, extended from its sixteen words. -/
def schedule (d : Algorithm) (block : List (BitVec d.wordBits)) : Array (BitVec d.wordBits) :=
  (List.range (d.rounds - 16)).foldl
    (fun ws i =>
      ws.push (rotate2 d.scheduleFar (ws.getD (i + 14) 0) + ws.getD (i + 9) 0 +
        rotate2 d.scheduleNear (ws.getD (i + 1) 0) + ws.getD i 0))
    block.toArray

/-- One round. -/
def round (d : Algorithm) (s : State d.wordBits) (kw : BitVec d.wordBits × BitVec d.wordBits) :
    State d.wordBits :=
  let choice := (s.e &&& s.f) ^^^ (~~~s.e &&& s.g)
  let majority := (s.a &&& s.b) ^^^ (s.a &&& s.c) ^^^ (s.b &&& s.c)
  let t1 := s.h + rotate3 d.mixFifth s.e + choice + kw.1 + kw.2
  let t2 := rotate3 d.mixFirst s.a + majority
  ⟨t1 + t2, s.a, s.b, s.c, s.d + t1, s.e, s.f, s.g⟩

/-- Takes one block into the state. -/
def compress (d : Algorithm) (s : State d.wordBits) (block : Octets) : State d.wordBits :=
  let words := (block.pieces (d.wordBits / 8)).map fun p => BitVec.ofNat d.wordBits p.toNat
  let t := (d.constants.zip (d.schedule words).toList).foldl d.round s
  .ofList ((s.toList.zip t.toList).map fun (x, y) => x + y)

/-- A message followed by a one bit, zero bits and its length in bits, to a whole number of
blocks. -/
def pad (d : Algorithm) (message : Octets) : Octets :=
  let block := 2 * d.wordBits
  let field := d.wordBits / 4
  let used := message.length + 1 + field
  message ++ 0x80 :: (List.replicate ((block - used % block) % block) 0 ++
    Octets.ofNat field (8 * message.length))

/-- The digest of a message. -/
def hash (d : Algorithm) (message : Octets) : Octets :=
  let blocks := (d.pad message).pieces (2 * d.wordBits)
  let final := blocks.foldl d.compress (.ofList d.initial)
  (final.toList.flatMap fun x => Octets.ofNat (d.wordBits / 8) x.toNat).take d.size

end Algorithm

end Digest

end AccountService
