import AccountService.Crypto.Digest

/-!
# Randomness

Random octets come from an endless source and are used up in order. Whoever fixes the source
fixes every identifier and salt that is drawn from it.

## Main definitions

* `Entropy` — a source and how much of it is used up
* `Entropy.take` — the next octets
-/

namespace AccountService

/-- An endless source of octets and how many are used up. -/
structure Entropy where
  /-- The octets of the source. -/
  source : Nat → UInt8
  /-- How many are used up. -/
  used : Nat

namespace Entropy

/-- The next `n` octets, and what is left. -/
def take (n : Nat) (e : Entropy) : Octets × Entropy :=
  ((List.range n).map fun i => e.source (e.used + i), { e with used := e.used + n })

/-- A source that is spread out from a seed by a digest. -/
def ofSeed (seed : Octets) : Entropy where
  source i :=
    ((Digest.Algorithm.sha256.hash (seed ++ Octets.ofNat 8 (i / 32))).getD (i % 32) 0)
  used := 0

end Entropy

end AccountService
