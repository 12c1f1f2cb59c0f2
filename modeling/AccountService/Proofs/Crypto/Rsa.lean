import AccountService.Crypto.Rsa
import Mathlib.Data.Nat.ChineseRemainder
import Mathlib.FieldTheory.Finite.Basic
import Mathlib.NumberTheory.LucasPrimality
import Mathlib.Tactic.NormNum.Prime

/-!
# The two exponents of an RSA key undo each other

The conditions that a key pair is checked for do not say that its two factors are prime. Where
they are, the private exponent and the public one undo each other on every number below the
modulus.

## Main definitions

* `Rsa.KeyPair.Genuine` — the numbers belong together and the factors are prime
* `Rsa.sampleKey` — a genuine key that may sign

## Main statements

* `Rsa.power_eq` — repeated squaring computes the power
* `Rsa.KeyPair.Genuine.power_power` — the exponents undo each other
* `Rsa.PublicKey.modulus_lt` — the modulus fits into the octets of a signature
* `Rsa.genuine_sampleKey` — the sample key is genuine
-/

namespace AccountService.Rsa

/-- Repeated squaring computes the power. -/
theorem power_eq (m b e : Nat) : power m b e = b ^ e % m := by
  -- Each step halves the exponent and squares the base.
  fun_induction power m b e with
  | case1 => simp
  | case2 b e h _ r hodd ih =>
    have he : e = 2 * (e / 2) + 1 := by omega
    conv => rhs; rw [he, Nat.pow_succ, Nat.pow_mul, Nat.mul_comm]
    show b * power m (b * b % m) (e / 2) % m = _
    rw [ih, Nat.mul_mod, Nat.mod_mod, ← Nat.pow_mod, ← Nat.mul_mod, Nat.pow_two]
  | case3 b e h _ r heven ih =>
    have he : e = 2 * (e / 2) := by omega
    conv => rhs; rw [he, Nat.pow_mul]
    show power m (b * b % m) (e / 2) = _
    rw [ih, ← Nat.pow_mod, Nat.pow_two]

/-- The numbers belong together and the factors of the modulus are prime. -/
structure KeyPair.Genuine (k : KeyPair) : Prop where
  isConsistent : k.isConsistent = true
  prime1 : k.prime1.Prime
  prime2 : k.prime2.Prime

/-- A power whose exponent is one more than a multiple of `p - 1` changes nothing modulo a
prime `p`. -/
theorem pow_modEq_self {p e : Nat} (hp : p.Prime) (he : e % (p - 1) = 1) (m : Nat) :
    m ^ e ≡ m [MOD p] := by
  have hsplit : e = (p - 1) * (e / (p - 1)) + 1 := by
    have := Nat.div_add_mod e (p - 1)
    omega
  -- Where `p` divides the base both sides vanish, and elsewhere Fermat's little theorem applies.
  by_cases hdvd : p ∣ m
  · have hm : m ≡ 0 [MOD p] := (Nat.modEq_zero_iff_dvd).2 hdvd
    have hpow : m ^ e ≡ 0 [MOD p] := by
      rw [hsplit, pow_succ]
      exact (Nat.modEq_zero_iff_dvd).2 (hdvd.mul_left _)
    exact hpow.trans hm.symm
  · have hfermat : m ^ (p - 1) ≡ 1 [MOD p] := by
      rw [← Nat.totient_prime hp]
      exact Nat.ModEq.pow_totient ((hp.coprime_iff_not_dvd.2 hdvd).symm)
    calc m ^ e = (m ^ (p - 1)) ^ (e / (p - 1)) * m := by
          conv_lhs => rw [hsplit]
          rw [pow_succ, pow_mul]
      _ ≡ 1 ^ (e / (p - 1)) * m [MOD p] := (hfermat.pow _).mul_right m
      _ = m := by rw [one_pow, one_mul]

namespace KeyPair

variable {k : KeyPair}

/-- What the consistency of the numbers gives to arithmetic. -/
theorem modulus_of_isConsistent (h : k.isConsistent = true) :
    k.prime1 * k.prime2 = k.public_.modulus ∧
      k.public_.exponent * k.private_ % (k.prime1 - 1) = 1 ∧
      k.public_.exponent * k.private_ % (k.prime2 - 1) = 1 ∧
      Nat.Coprime k.prime1 k.prime2 := by
  simp only [isConsistent, Bool.and_eq_true, beq_iff_eq] at h
  obtain ⟨⟨⟨⟨_, hmodulus⟩, h1⟩, h2⟩, hgcd⟩ := h
  exact ⟨hmodulus, h1, h2, hgcd⟩

/-- The private exponent and the public one undo each other on every number below the
modulus. -/
theorem Genuine.power_power (h : k.Genuine) {m : Nat} (hm : m < k.public_.modulus) :
    power k.public_.modulus (power k.public_.modulus m k.private_) k.public_.exponent = m := by
  obtain ⟨hmodulus, h1, h2, hcoprime⟩ := modulus_of_isConsistent h.isConsistent
  -- It holds modulo each factor, and these are coprime.
  have hboth : m ^ (k.public_.exponent * k.private_) ≡ m [MOD k.public_.modulus] := by
    rw [← hmodulus]
    exact (Nat.modEq_and_modEq_iff_modEq_mul hcoprime).1
      ⟨pow_modEq_self h.prime1 h1 m, pow_modEq_self h.prime2 h2 m⟩
  rw [power_eq, power_eq, ← Nat.pow_mod, ← pow_mul, Nat.mul_comm]
  exact Nat.mod_eq_of_modEq hboth hm

end KeyPair

/-! ### The size of a key -/

theorem lt_two_pow_bitLength (n : Nat) : n < 2 ^ bitLength n := by
  unfold bitLength
  split
  · omega
  · exact Nat.lt_log2_self

theorem two_pow_le_of_bitLength {n : Nat} (h : n ≠ 0) : 2 ^ (bitLength n - 1) ≤ n := by
  rw [bitLength, if_neg h, Nat.add_sub_cancel]
  exact Nat.log2_self_le h

/-- The modulus fits into the octets of a signature. -/
theorem PublicKey.modulus_lt (k : PublicKey) : k.modulus < 256 ^ k.size := by
  refine (lt_two_pow_bitLength k.modulus).trans_le ?_
  rw [show 256 = 2 ^ 8 from rfl, ← pow_mul, PublicKey.size]
  exact Nat.pow_le_pow_right (by decide) (by omega)

/-! ### A sample key -/

/-- A number is prime when the predecessor has two prime factors and three powers show the
order of 3 to be the whole of it. -/
theorem prime_of_powers {n k s : Nat} (hk : k.Prime) (hn : n = k * 2 ^ s + 1)
    (hone : power n 3 (n - 1) = 1) (htwo : power n 3 ((n - 1) / 2) ≠ 1)
    (hother : power n 3 ((n - 1) / k) ≠ 1) : n.Prime := by
  have hpos : 0 < k * 2 ^ s := Nat.mul_pos hk.pos (Nat.pow_pos (by decide))
  have hpower (e : Nat) : (3 : ZMod n) ^ e = 1 ↔ power n 3 e = 1 := by
    have hcast := ZMod.natCast_eq_natCast_iff' (3 ^ e) 1 n
    rw [Nat.mod_eq_of_lt (show 1 < n by omega)] at hcast
    rw [power_eq, ← hcast]
    push_cast
    rfl
  refine lucas_primality n 3 ((hpower _).2 hone) fun q hq hdvd => ?_
  rw [ne_eq, hpower]
  have hfactor : q ∣ k * 2 ^ s := by rwa [hn, Nat.add_sub_cancel] at hdvd
  rcases (hq.dvd_mul).1 hfactor with hqk | hqtwo
  · rwa [(Nat.prime_dvd_prime_iff_eq hq hk).1 hqk]
  · rwa [(Nat.prime_dvd_prime_iff_eq hq Nat.prime_two).1 (hq.dvd_of_dvd_pow hqtwo)]

/-- A key of 2048 bits whose primes are small ones shifted far up, plus one. -/
def sampleKey : KeyPair where
  public_ := ⟨(16770781 * 2 ^ 1000 + 1) * (16754917 * 2 ^ 1000 + 1), 65537⟩
  private_ := (49361 * (16770781 * 16754917 * 2 ^ 1000) + 1) / 65537
  prime1 := 16770781 * 2 ^ 1000 + 1
  prime2 := 16754917 * 2 ^ 1000 + 1

theorem genuine_sampleKey : sampleKey.Genuine where
  isConsistent := by decide +kernel
  prime1 := prime_of_powers (k := 16770781) (s := 1000) (by norm_num) rfl (by decide +kernel)
    (by decide +kernel) (by decide +kernel)
  prime2 := prime_of_powers (k := 16754917) (s := 1000) (by norm_num) rfl (by decide +kernel)
    (by decide +kernel) (by decide +kernel)

theorem canSign_sampleKey : sampleKey.canSign = true := by decide +kernel

end AccountService.Rsa
