import AccountService.Crypto.Signature
import AccountService.Proofs.Crypto.Digest
import AccountService.Proofs.Crypto.Rsa

/-!
# What a key pair signs, it verifies

A signature is tried out before it is given away, so what is given away is taken back to the
form of the message. For the salted scheme it is also shown that the form determines its salt:
the mask is drawn from the digest, which the form carries openly, and the digits that are cut
off lie in the first octet, which belongs to neither salt nor digest.

## Main statements

* `Signature.checkSalted_padSalted` — a salted form is recognised
* `Signature.verify_sign` — what a key pair signs verifies under its public half
* `Signature.exists_sign` — a genuine key that may sign signs every message
-/

namespace AccountService.Signature

open Rsa (PublicKey KeyPair)

/-! ### The salted form -/

theorem length_mask (d : Digest.Algorithm) (seed : Octets) (size : Nat) :
    (mask d seed size).length = size := by
  have hd : 0 < d.size := by cases d <;> decide
  -- As many digests are joined as it takes to cover the size.
  have hceil : size ≤ (size + d.size - 1) / d.size * d.size := by
    have hmod := Nat.mod_lt (size + d.size - 1) hd
    have hdiv := Nat.div_add_mod' (size + d.size - 1) d.size
    omega
  rw [mask, List.length_take, List.length_flatMap]
  simp only [Digest.Algorithm.length_hash]
  rw [List.map_const', List.length_range, List.sum_replicate_nat]
  exact Nat.min_eq_left hceil

theorem length_combine {xs ys : Octets} (h : xs.length = ys.length) :
    (combine xs ys).length = xs.length := by
  rw [combine, List.length_zipWith, h, Nat.min_self]

/-- Combining twice with the same octets changes nothing. -/
theorem combine_combine {xs ys : Octets} (h : xs.length = ys.length) :
    combine (combine xs ys) ys = xs := by
  induction xs generalizing ys with
  | nil => rfl
  | cons x xs ih =>
    cases ys with
    | nil => cases h
    | cons y ys =>
      have hrest : combine (combine xs ys) ys = xs := ih (Nat.succ.inj h)
      have hhead : x ^^^ y ^^^ y = x := by rw [UInt8.xor_assoc, UInt8.xor_self, UInt8.xor_zero]
      rw [combine, combine, List.zipWith_cons_cons, List.zipWith_cons_cons, hhead]
      exact congrArg (x :: ·) hrest

theorem tail_combine (xs ys : Octets) : (combine xs ys).tail = combine xs.tail ys.tail := by
  cases xs with
  | nil => rfl
  | cons x xs =>
    cases ys with
    | nil => cases xs <;> rfl
    | cons y ys => rfl

/-- Octets from the second on depend on the tail alone. -/
theorem drop_eq_of_tail_eq {xs ys : Octets} (h : xs.tail = ys.tail) {n : Nat} (hn : 0 < n) :
    xs.drop n = ys.drop n := by
  obtain ⟨n, rfl⟩ := Nat.exists_eq_add_one.2 hn
  rw [← List.drop_tail, ← List.drop_tail, h]

/-- The salt of a salted form can be taken out of it again. -/
theorem salt_of_masked {d : Digest.Algorithm} {block masked h : Octets}
    (htail : masked.tail = (combine block (mask d h block.length)).tail)
    (hlength : masked.length = block.length) {n : Nat} (hn : 0 < n) :
    (combine masked (mask d h masked.length)).drop n = block.drop n := by
  have hmask : block.length = (mask d h block.length).length := (length_mask d h _).symm
  refine drop_eq_of_tail_eq ?_ hn
  rw [tail_combine, htail, ← tail_combine, hlength, combine_combine hmask]

/-- A salted form is recognised, if the salt is as long as the digest and the form has room for
both. -/
theorem checkSalted_padSalted {d : Digest.Algorithm} {bits : Nat} {message salt : Octets}
    (hsalt : salt.length = d.size) (hroom : 2 * d.size + 2 ≤ (bits + 7) / 8) :
    checkSalted d bits message (padSalted d bits message salt) = true := by
  -- The form consists of the masked block, the digest and a closing octet.
  set size := (bits + 7) / 8 with hsize
  set h := saltedDigest d message salt with hh
  set block := List.replicate (size - salt.length - d.size - 2) 0 ++ 0x01 :: salt with hblock
  set masked := combine block (mask d h block.length) with hmasked
  have hd : 0 < d.size := by cases d <;> decide
  have hlh : h.length = d.size := Digest.Algorithm.length_hash _ _
  have hlb : block.length = size - d.size - 1 := by
    simp only [hblock, List.length_append, List.length_replicate, List.length_cons, hsalt]
    omega
  have hlm : masked.length = size - d.size - 1 :=
    (length_combine (length_mask d h _).symm).trans hlb
  have hpad : padSalted d bits message salt = (masked ++ h ++ [0xBC]).toNat % 2 ^ bits := rfl
  have hlfull : (masked ++ h ++ [0xBC]).length = size := by
    simp only [List.length_append, hlm, hlh, List.length_singleton]
    omega
  -- Cutting to `bits` digits changes the first octet alone.
  have htail : (Octets.ofNat size (padSalted d bits message salt)).tail =
      (masked ++ h ++ [0xBC]).tail := by
    have hcut := Octets.tail_ofNat_mod (masked ++ h ++ [0xBC])
      (show 8 * (_ - 1) ≤ bits by rw [hlfull]; omega)
    rwa [hlfull, ← hpad] at hcut
  set octets := Octets.ofNat size (padSalted d bits message salt) with hoctets
  have hlo : octets.length = size := Octets.length_ofNat _ _
  -- The digest is found where it was put, and with it the mask.
  have hdigest : (octets.drop (size - d.size - 1)).take d.size = h := by
    rw [drop_eq_of_tail_eq htail (by omega), List.append_assoc, ← hlm, List.drop_left,
      ← hlh, List.take_left]
  have hfront : (octets.take (size - d.size - 1)).tail = masked.tail := by
    rw [List.tail_take_eq_take_tail, htail, ← List.tail_take_eq_take_tail, ← hlm,
      List.append_assoc, List.take_left]
  have hlfront : (octets.take (size - d.size - 1)).length = block.length := by
    rw [List.length_take, hlo, hlb]
    omega
  -- Unmasked, the front ends with the salt again.
  have hextract : (combine (octets.take (size - d.size - 1))
      (mask d h (octets.take (size - d.size - 1)).length)).drop (block.length - d.size) =
      salt := by
    rw [salt_of_masked hfront hlfront (by omega), hblock, ← List.singleton_append,
      ← List.append_assoc]
    exact List.drop_left' (by simp only [List.length_append, List.length_replicate,
      List.length_cons, hsalt]; omega)
  have hbound : padSalted d bits message salt < Nat.pow 2 bits :=
    Nat.mod_lt _ (Nat.pow_pos (by decide))
  have hlcombined : (combine (octets.take (size - d.size - 1))
      (mask d h (octets.take (size - d.size - 1)).length)).length = block.length :=
    (length_combine (length_mask d h _).symm).trans hlfront
  simp only [checkSalted, ← hsize, ← hoctets, hdigest, hlcombined, hextract, hbound,
    decide_true, beq_self_eq_true, Bool.and_self]

/-! ### Signatures -/

theorem size_le (d : Digest.Algorithm) : d.size ≤ 64 := by cases d <;> decide

theorem length_digestName (d : Digest.Algorithm) : (digestName d).length = 19 := by
  cases d <;> rfl

/-- A length that is rounded up to 256 octets leaves at most seven bits unused. -/
theorem bits_of_canSign {key : KeyPair} (h : key.canSign = true) :
    2041 ≤ Rsa.bitLength key.public_.modulus ∧ key.public_.canVerify = true := by
  simp only [KeyPair.canSign, Bool.and_eq_true, decide_eq_true_eq] at h
  obtain ⟨⟨⟨⟨⟨⟨⟨hlo, hhi⟩, _⟩, _⟩, _⟩, _⟩, _⟩, _⟩ := h
  simp only [PublicKey.canVerify, Bool.and_eq_true, decide_eq_true_eq]
  rw [PublicKey.size] at hlo ⊢
  omega

theorem modulus_pos {key : PublicKey} (h : 0 < Rsa.bitLength key.modulus) : 0 < key.modulus := by
  refine Nat.pos_of_ne_zero fun hzero => ?_
  rw [hzero] at h
  exact absurd h (by decide)

/-- What is signed is a number below the modulus. -/
theorem represent_lt (s : Scheme) (key : PublicKey) (salt message : Octets)
    (hbits : 2041 ≤ Rsa.bitLength key.modulus) :
    represent s key salt message < key.modulus := by
  have hle : 2 ^ (Rsa.bitLength key.modulus - 1) ≤ key.modulus :=
    Rsa.two_pow_le_of_bitLength (modulus_pos (by omega)).ne'
  refine lt_of_lt_of_le ?_ hle
  have hd := size_le s.digest
  rw [represent]
  cases s.padding with
  | salted => exact Nat.mod_lt _ (Nat.pow_pos (by decide))
  | fixed =>
    have hlength : (padFixed s.digest key.size message).length = key.size := by
      simp only [padFixed, List.length_cons, List.length_append, List.length_replicate,
        length_digestName, Digest.Algorithm.length_hash, PublicKey.size]
      omega
    -- The first octet is zero, so the number has eight digits less than there is room for.
    have hlt := Octets.toNat_lt (padFixed s.digest key.size message).tail
    rw [List.length_tail, hlength, show 256 = 2 ^ 8 from rfl, ← Nat.pow_mul] at hlt
    have hhead : (padFixed s.digest key.size message).toNat =
        Octets.toNat (padFixed s.digest key.size message).tail := by
      rw [padFixed, Octets.toNat_cons, List.tail_cons]
      simp
    show (padFixed s.digest key.size message).toNat < _
    rw [hhead]
    refine hlt.trans_le (Nat.pow_le_pow_right (by decide) ?_)
    rw [PublicKey.size]
    omega

/-- What a key pair signs verifies under its public half. -/
theorem verify_sign {s : Scheme} {key : KeyPair} {salt message signature : Octets}
    (hsalt : s.padding = .salted → salt.length = s.digest.size)
    (h : sign s key salt message = .ok signature) :
    verify s key.public_ message signature = true := by
  simp only [sign] at h
  split at h
  · next hcan =>
    split at h
    · next hresult =>
      -- The signature was tried out, so its power is the form of the message again: `hresult`.
      obtain ⟨hbits, hverify⟩ := bits_of_canSign hcan
      have hpos : 0 < key.public_.modulus := modulus_pos (by omega)
      set n := key.public_.modulus
      set r := Rsa.power n (represent s key.public_ salt message) key.private_ with hr
      have hrlt : r < n := by
        rw [hr, Rsa.power_eq]
        exact Nat.mod_lt _ hpos
      have hread : (Octets.ofNat key.public_.size r).toNat = r :=
        Octets.toNat_ofNat (hrlt.trans key.public_.modulus_lt)
      have hform : isFormOf s key.public_ message r = true := by
        have hd := size_le s.digest
        rw [isFormOf]
        cases hpadding : s.padding with
        | fixed => simp [hresult, n, represent, hpadding]
        | salted =>
          have hcheck : checkSalted s.digest (Rsa.bitLength n - 1) message
              (padSalted s.digest (Rsa.bitLength n - 1) message salt) = true :=
            checkSalted_padSalted (hsalt hpadding) (by omega)
          simpa [hresult, n, represent, hpadding] using hcheck
      obtain rfl := Except.ok.inj h
      simp only [verify, hverify, hread, hform, Octets.length_ofNat, beq_self_eq_true,
        Bool.and_true, Bool.true_and, decide_eq_true_eq]
      exact hrlt
    · cases h
  · cases h

/-- A genuine key that may sign signs every message. -/
theorem exists_sign (s : Scheme) {key : KeyPair} (salt message : Octets) (hkey : key.Genuine)
    (hcan : key.canSign = true) : ∃ signature, sign s key salt message = .ok signature := by
  have hresult := hkey.power_power
    (represent_lt s key.public_ salt message (bits_of_canSign hcan).1)
  refine ⟨Octets.ofNat key.public_.size (Rsa.power key.public_.modulus
    (represent s key.public_ salt message) key.private_), ?_⟩
  rw [sign, if_pos hcan]
  exact if_pos hresult

end AccountService.Signature
