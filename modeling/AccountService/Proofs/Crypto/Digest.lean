import AccountService.Crypto.Digest
import Mathlib.Algebra.Group.Nat.Defs

/-!
# Octets as numbers, and the length of digests

Octets of a fixed length and the numbers that fit into them are two forms of the same thing.
When a number loses digits at its front, only the first octets notice.

## Main statements

* `Octets.toNat_ofNat`, `Octets.ofNat_toNat` — the two forms determine each other
* `Octets.tail_ofNat_mod` — a number cut to fewer binary digits keeps all but its first octet
* `Digest.Algorithm.length_hash` — digests have the length of their algorithm
-/

namespace AccountService

namespace Octets

theorem foldl_toNat (acc : Nat) (bs : Octets) :
    bs.foldl (fun n b => 256 * n + b.toNat) acc = acc * 256 ^ bs.length + bs.toNat := by
  induction bs generalizing acc with
  | nil => simp [toNat]
  | cons b bs ih =>
    have hacc := ih (256 * acc + b.toNat)
    have hzero := ih b.toNat
    rw [toNat, List.foldl_cons, List.foldl_cons, hacc, Nat.mul_zero, Nat.zero_add, hzero,
      List.length_cons, Nat.pow_succ, Nat.add_mul, Nat.add_assoc, Nat.mul_comm 256 acc,
      Nat.mul_assoc, Nat.mul_comm 256]

theorem toNat_cons (b : UInt8) (bs : Octets) :
    toNat (b :: bs) = b.toNat * 256 ^ bs.length + bs.toNat := by
  have h := foldl_toNat b.toNat bs
  rwa [toNat, List.foldl_cons, Nat.mul_zero, Nat.zero_add]

theorem toNat_lt (bs : Octets) : bs.toNat < 256 ^ bs.length := by
  induction bs with
  | nil => decide
  | cons b bs ih =>
    have hb : b.toNat < 256 := b.toNat_lt
    rw [toNat_cons, List.length_cons, Nat.pow_succ, Nat.mul_comm _ 256]
    have hle : (b.toNat + 1) * 256 ^ bs.length ≤ 256 * 256 ^ bs.length :=
      Nat.mul_le_mul_right _ hb
    rw [Nat.add_mul, Nat.one_mul] at hle
    omega

theorem ofNat_succ (w n : Nat) :
    ofNat (w + 1) n = UInt8.ofNat (n / 256 ^ w % 256) :: ofNat w n := by
  have hshift : n >>> (8 * w) = n / 256 ^ w := by
    rw [Nat.shiftRight_eq_div_pow, Nat.pow_mul]
  rw [ofNat, List.range_succ, List.reverse_append, List.map_append, ofNat, ← hshift]
  rfl

/-- Octets write no more than the last digits of a number. -/
theorem ofNat_mod (w n : Nat) {bits : Nat} (h : 8 * w ≤ bits) :
    ofNat w (n % 2 ^ bits) = ofNat w n := by
  refine List.map_congr_left fun i hi => ?_
  have hi : i < w := by simpa using hi
  have hbits : bits = 8 * i + (8 + (bits - 8 * i - 8)) := by omega
  rw [Nat.shiftRight_eq_div_pow, Nat.shiftRight_eq_div_pow, hbits, Nat.pow_add,
    Nat.mod_mul_right_div_self, Nat.pow_add, Nat.mod_mul_right_mod]

/-- A number that fits is read back from its octets. -/
theorem toNat_ofNat {w n : Nat} (h : n < 256 ^ w) : (ofNat w n).toNat = n := by
  -- The induction needs all widths: what does not fit is cut off.
  have hread : ∀ w, (ofNat w n).toNat = n % 256 ^ w := by
    intro w
    induction w with
    | zero => simp [ofNat, toNat, Nat.mod_one]
    | succ w ih =>
      have hdigit : (UInt8.ofNat (n / 256 ^ w % 256)).toNat = n / 256 ^ w % 256 :=
        UInt8.toNat_ofNat_of_lt' (Nat.mod_lt _ (by decide))
      rw [ofNat_succ, toNat_cons, hdigit, length_ofNat, ih, Nat.pow_succ, Nat.mod_mul,
        Nat.mul_comm, Nat.add_comm]
  rw [hread, Nat.mod_eq_of_lt h]

/-- Octets are the octets of the number they write. -/
theorem ofNat_toNat (bs : Octets) : ofNat bs.length bs.toNat = bs := by
  -- The induction needs any number in front, since the tail is read with the head in front of it.
  have hlow : ∀ (bs : Octets) (n : Nat),
      ofNat bs.length (n * 256 ^ bs.length + bs.toNat) = bs := by
    intro bs
    induction bs with
    | nil => intro n; rfl
    | cons b bs ih =>
      intro n
      have hsplit : n * 256 ^ (b :: bs).length + toNat (b :: bs) =
          (n * 256 + b.toNat) * 256 ^ bs.length + toNat bs := by
        rw [toNat_cons, List.length_cons, Nat.pow_succ, Nat.add_mul, Nat.add_assoc,
          Nat.mul_assoc, Nat.mul_comm 256]
      have hfront : ((n * 256 + b.toNat) * 256 ^ bs.length + toNat bs) / 256 ^ bs.length % 256 =
          b.toNat := by
        rw [Nat.mul_comm _ (256 ^ bs.length), Nat.mul_add_div (Nat.pow_pos (by decide)),
          Nat.div_eq_of_lt (toNat_lt bs), Nat.add_zero, Nat.mul_add_mod',
          Nat.mod_eq_of_lt b.toNat_lt]
      rw [hsplit, List.length_cons, ofNat_succ, hfront, UInt8.ofNat_toNat, ih]
  have h := hlow bs 0
  rwa [Nat.zero_mul, Nat.zero_add] at h

/-- A number cut to fewer binary digits keeps all but its first octet. -/
theorem tail_ofNat_mod (bs : Octets) {bits : Nat} (h : 8 * (bs.length - 1) ≤ bits) :
    (ofNat bs.length (bs.toNat % 2 ^ bits)).tail = bs.tail := by
  cases bs with
  | nil => rfl
  | cons b bs =>
    have hwhole := ofNat_toNat (b :: bs)
    rw [List.length_cons, ofNat_succ] at hwhole
    rw [List.length_cons, Nat.add_sub_cancel] at h
    rw [List.length_cons, ofNat_succ, List.tail_cons, List.tail_cons, ofNat_mod _ _ h]
    exact (List.cons.inj hwhole).2

end Octets

namespace Digest.Algorithm

/-- Digests have the length of their algorithm. -/
@[simp] theorem length_hash (d : Algorithm) (message : Octets) :
    (d.hash message).length = d.size := by
  rw [hash]
  simp only [State.toList, List.flatMap_cons, List.flatMap_nil, List.length_take,
    List.length_append, Octets.length_ofNat, List.length_nil]
  cases d <;> rfl

end Digest.Algorithm

end AccountService
