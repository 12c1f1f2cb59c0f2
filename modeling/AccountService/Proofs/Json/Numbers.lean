import AccountService.Json.Token
import AccountService.Proofs.Text.Numeral
import AccountService.Proofs.Text.Utf8
import Mathlib.Algebra.Group.Int.Defs
import Mathlib.Algebra.Group.Nat.Defs

/-!
# Integers in JSON documents

The shortest numeral of an integer is a number of the JSON grammar: it has no superfluous zero
in front, neither fraction nor exponent. Read as a number of a document it denotes the integer
again, wherever that fits 64 bits.

## Main definitions

* `Numeral.decimal` — the decimal digits of a natural number
* `Json.Number.ofInt` — the number that is written for an integer

## Main statements

* `Json.Number.ofLexeme?_ofInt` — the numeral of an integer reads as its number
* `Json.Number.int?_ofInt` — that number denotes the integer
-/

namespace AccountService

namespace Numeral

/-- The decimal digits of a natural number, most significant first. -/
def decimal (n : Nat) : List Nat := (ofNat n).map fun c => c.toNat - 48

theorem decimal_ne_nil (n : Nat) : decimal n ≠ [] := by
  simp [decimal, ofNat]

theorem toNat_of_mem_ofNat {n : Nat} {c : Char} (h : c ∈ ofNat n) : 48 ≤ c.toNat ∧ c.toNat ≤ 57 :=
  Char.isDigit_iff_toNat.1 ((decimal_ofNat n).isDigit c h)

theorem lt_of_mem_decimal {n d : Nat} (h : d ∈ decimal n) : d < 10 := by
  obtain ⟨c, hc, rfl⟩ := List.mem_map.1 h
  have hrange := toNat_of_mem_ofNat hc
  omega

/-- The digits are those of the number that the numeral writes. -/
theorem ofDigits_decimal (n : Nat) : Json.Number.ofDigits (decimal n) = n := by
  rw [Json.Number.ofDigits, decimal, List.foldl_map]
  exact (decimal_ofNat n).value

/-- Only the numeral of zero begins with a zero. -/
theorem eq_nil_of_decimal_eq_zero_cons {n : Nat} {ds : List Nat} (h : decimal n = 0 :: ds) :
    ds = [] := by
  obtain ⟨c, cs, hchars, hc, rfl⟩ := List.map_eq_cons_iff.1 h
  have hrange := toNat_of_mem_ofNat (hchars ▸ List.mem_cons_self : c ∈ ofNat n)
  have hzero : c = '0' := Char.toNat_inj.1 (by show c.toNat = 48; omega)
  obtain rfl : n = 0 := eq_zero_of_mem_head?_ofNat (by rw [hchars, hzero]; rfl)
  obtain ⟨-, rfl⟩ := List.cons.inj hchars
  rfl

/-- The octet of a decimal digit. -/
def digitOctet (d : Nat) : UInt8 := UInt8.ofNat (48 + d)

theorem toNat_digitOctet {d : Nat} (h : d < 10) : (digitOctet d).toNat = 48 + d := by
  rw [digitOctet, UInt8.toNat_ofNat']
  omega

/-- The characters of a numeral are the octets of its digits. -/
theorem ofChars_ofNat (n : Nat) : Octets.ofChars (ofNat n) = (decimal n).map digitOctet := by
  rw [Octets.ofChars_ascii fun c hc => by have := toNat_of_mem_ofNat hc; omega, decimal,
    List.map_map]
  refine List.map_congr_left fun c hc => ?_
  have hrange := toNat_of_mem_ofNat hc
  rw [Function.comp_apply, digitOctet]
  congr 1
  omega

end Numeral

namespace Json.Number

open Numeral (decimal digitOctet)

/-- The number that is written for an integer. -/
def ofInt (n : Int) : Number := ⟨decide (n < 0), decimal n.natAbs, [], none⟩

theorem digit?_digitOctet {d : Nat} (h : d < 10) : digit? (digitOctet d) = some d := by
  have hd := Numeral.toNat_digitOctet h
  rw [digit?, hd, if_pos (by omega)]
  congr 1
  omega

theorem isDigit_digitOctet {d : Nat} (h : d < 10) : isDigit (digitOctet d) = true := by
  rw [isDigit, digit?_digitOctet h]
  rfl

/-- Digits are split off as a whole. -/
theorem splitDigits_digits {ds : List Nat} (h : ∀ d ∈ ds, d < 10) :
    splitDigits (ds.map digitOctet) = (ds, []) := by
  induction ds with
  | nil => rfl
  | cons d ds ih =>
    have hd : d < 10 := h d (by simp)
    have hds := Prod.ext_iff.1 (ih fun x hx => h x (by simp [hx]))
    simp only [splitDigits] at hds ⊢
    simp only [List.map_cons, List.takeWhile_cons, List.dropWhile_cons, isDigit_digitOctet hd,
      if_true, List.filterMap_cons, digit?_digitOctet hd, hds.1, hds.2]

theorem digitOctet_ne {d : Nat} (h : d < 10) {b : UInt8} (hb : b.toNat < 48) :
    digitOctet d ≠ b := by
  intro he
  have := Numeral.toNat_digitOctet h
  rw [he] at this
  omega

/-- The digits of a numeral are split off as a whole, and stand for a whole number. -/
theorem splitDigits_decimal (n : Nat) :
    splitDigits ((decimal n).map digitOctet) = (decimal n, []) :=
  splitDigits_digits fun _ hd => Numeral.lt_of_mem_decimal hd

/-- The digits of a numeral, without a sign, are a number. -/
theorem ofLexeme?_digits (n : Nat) :
    ofLexeme? ((decimal n).map digitOctet) = some ⟨false, decimal n, [], none⟩ := by
  have hsplit := splitDigits_decimal n
  cases hn : decimal n with
  | nil => exact absurd hn (Numeral.decimal_ne_nil n)
  | cons d ds =>
    have hd : d < 10 := Numeral.lt_of_mem_decimal (by rw [hn]; simp)
    rw [hn, List.map_cons] at hsplit
    unfold ofLexeme?
    split
    next negative body heq =>
    split at heq
    · next h => exact absurd (List.cons.inj h).1 (digitOctet_ne hd (by decide))
    · obtain ⟨rfl, rfl⟩ := Prod.mk.inj heq
      rw [List.map_cons, hsplit]
      -- A zero may be in front only if nothing follows it.
      match d, ds, hn with
      | 0, [], _ => rfl
      | 0, _ :: _, hn => exact absurd (Numeral.eq_nil_of_decimal_eq_zero_cons hn) (by simp)
      | _ + 1, _, _ => rfl

/-- The digits of a numeral after a minus sign are a number. -/
theorem ofLexeme?_minus_digits (n : Nat) :
    ofLexeme? (0x2D :: (decimal n).map digitOctet) = some ⟨true, decimal n, [], none⟩ := by
  have hsplit := splitDigits_decimal n
  unfold ofLexeme?
  split
  next negative body heq =>
  obtain ⟨rfl, rfl⟩ := Prod.mk.inj heq
  rw [hsplit]
  cases hn : decimal n with
  | nil => exact absurd hn (Numeral.decimal_ne_nil n)
  | cons d ds =>
    match d, ds, hn with
    | 0, [], _ => rfl
    | 0, _ :: _, hn => exact absurd (Numeral.eq_nil_of_decimal_eq_zero_cons hn) (by simp)
    | _ + 1, _, _ => rfl

/-- The octets of the numeral of an integer. -/
theorem ofChars_numeral (n : Int) :
    Octets.ofChars (Numeral.ofInt n) =
      if n < 0 then 0x2D :: (decimal n.natAbs).map digitOctet
      else (decimal n.natAbs).map digitOctet := by
  cases n with
  | ofNat n =>
    have hn : ¬ Int.ofNat n < 0 := by simp
    rw [if_neg hn]
    exact Numeral.ofChars_ofNat n
  | negSucc n =>
    rw [if_pos (Int.negSucc_lt_zero n), Numeral.ofInt, Octets.ofChars_cons_ascii (by decide),
      Numeral.ofChars_ofNat]
    rfl

/-- The numeral of an integer reads as its number. -/
theorem ofLexeme?_ofInt (n : Int) :
    ofLexeme? (Octets.ofChars (Numeral.ofInt n)) = some (ofInt n) := by
  rw [ofChars_numeral]
  by_cases hn : n < 0
  · rw [if_pos hn, ofLexeme?_minus_digits, ofInt, decide_eq_true hn]
  · rw [if_neg hn, ofLexeme?_digits, ofInt, decide_eq_false hn]

/-! ### The integer that is written -/

theorem le_foldl_digits (ds : List Nat) (n : Nat) :
    n ≤ ds.foldl (fun n d => 10 * n + d) n := by
  induction ds generalizing n with
  | nil => exact Nat.le_refl n
  | cons d ds ih => exact Nat.le_trans (by omega) (ih (10 * n + d))

/-- Digits whose number fits 64 bits are all collected. -/
theorem collectWhole_eq {ds : List Nat} {n : Nat}
    (h : ds.foldl (fun n d => 10 * n + d) n < 2 ^ 64) :
    collectWhole (n, 0) ds = (ds.foldl (fun n d => 10 * n + d) n, 0) := by
  induction ds generalizing n with
  | nil => rfl
  | cons d ds ih =>
    rw [List.foldl_cons] at h ⊢
    -- Further digits only make the number larger, so if it fits at the end it fits here.
    have hfit : 10 * n + d < 2 ^ 64 := Nat.lt_of_le_of_lt (le_foldl_digits ds _) h
    rw [collectWhole, if_pos ⟨rfl, hfit⟩, ih h]

theorem collectWhole_decimal {n : Nat} (h : n < 2 ^ 64) :
    collectWhole (0, 0) (decimal n) = (n, 0) := by
  have hvalue := Numeral.ofDigits_decimal n
  rw [ofDigits] at hvalue
  rw [collectWhole_eq (by rw [hvalue]; exact h), hvalue]

/-- The number of an integer that fits 64 bits, with or without a sign, denotes it. -/
theorem int?_ofInt {n : Int} (hlo : -2 ^ 63 ≤ n) (hhi : n < 2 ^ 64) :
    (ofInt n).int? = some n := by
  have hfit : n.natAbs < 2 ^ 64 := by omega
  -- With a sign the number may reach `2 ^ 63`, without one it stays below `2 ^ 64`.
  by_cases hn : n < 0
  · have habs : 0 < n.natAbs ∧ n.natAbs ≤ Nat.pow 2 63 := by
      rw [Nat.pow_eq]
      omega
    have hint : (ofInt n).int? = some (-Int.ofNat n.natAbs) := by
      simp only [int?, ofInt, List.isEmpty_nil, Option.isNone_none, Bool.and_self, if_true,
        collectWhole_decimal hfit, decide_eq_true hn, habs, and_self]
    rw [hint, Int.ofNat_eq_natCast, Int.ofNat_natAbs_of_nonpos (Int.le_of_lt hn), Int.neg_neg]
  · have hint : (ofInt n).int? = some (Int.ofNat n.natAbs) := by
      simp only [int?, ofInt, List.isEmpty_nil, Option.isNone_none, Bool.and_self, if_true,
        collectWhole_decimal hfit, decide_eq_false hn, Bool.false_eq_true, if_false]
    rw [hint, Int.ofNat_eq_natCast, Int.natAbs_of_nonneg (Int.not_lt.1 hn)]

end Json.Number

end AccountService
