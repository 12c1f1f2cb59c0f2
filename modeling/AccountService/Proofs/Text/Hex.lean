import Mathlib.Data.List.Forall2
import Mathlib.Data.Nat.Digits.Defs
import Mathlib.Tactic.Ring
import AccountService.Text.Hex

/-!
# Hexadecimal numerals read back

## Main definitions

* `Hex.Writes` — the number that digits write

## Main statements

* `Hex.read?_eq_some_iff` — digits are read to the number that they write
* `Hex.read?_fixed`, `Hex.read?_shortest` — a number reads back from enough digits, and from the
  fewest
-/

namespace AccountService.Hex

theorem value?_digit : ∀ n < 16, value? (digit n) = some n := by decide

theorem toNat_digit_lt : ∀ n < 16, (digit n).toNat < 128 := by decide

/-- The four digits of a number below `2 ^ 16`. -/
theorem fixed_four (n : Nat) :
    fixed 4 n = [digit (n / 4096 % 16), digit (n / 256 % 16), digit (n / 16 % 16),
      digit (n / 1 % 16)] := rfl

theorem fixed_succ (width n : Nat) :
    fixed (width + 1) n = digit (n / 16 ^ width % 16) :: fixed width n := by
  rw [fixed, List.range_succ, List.reverse_append, List.map_append]
  rfl

/-- The digits of a number continue the number that was read before them. -/
theorem foldlM_fixed (width n start : Nat) :
    (fixed width n).foldlM (fun m c => (value? c).map (16 * m + ·)) start =
      some (start * 16 ^ width + n % 16 ^ width) := by
  induction width generalizing start with
  | zero => simp [fixed, Nat.mod_one]
  | succ width ih =>
    have hdigit := value?_digit _ (Nat.mod_lt (n / 16 ^ width) (by decide : 0 < 16))
    rw [fixed_succ, List.foldlM_cons, hdigit]
    -- One more digit is one more place for all that stands before it.
    have hsplit : n % 16 ^ (width + 1) = n / 16 ^ width % 16 * 16 ^ width + n % 16 ^ width := by
      rw [Nat.pow_succ, Nat.mod_mul, Nat.mul_comm, Nat.add_comm]
    rw [Option.map_some, Option.bind_eq_bind, Option.bind_some, ih, hsplit, Nat.pow_succ]
    congr 1
    ring

/-- A number in enough digits reads back. -/
theorem read?_fixed {width n : Nat} (h : n < 16 ^ width) : read? (fixed width n) = some n := by
  rw [read?, foldlM_fixed, Nat.zero_mul, Nat.zero_add, Nat.mod_eq_of_lt h]

/-! ### The numbers that digits write -/

/-- Digits of either case write a number in base sixteen, the most significant first. -/
def Writes (cs : List Char) (n : Nat) : Prop :=
  ∃ ds, List.Forall₂ (fun c d => value? c = some d) cs ds ∧ Nat.ofDigits 16 ds.reverse = n

theorem value?_lt {c : Char} {d : Nat} (h : value? c = some d) : d < 16 := by
  simp only [value?] at h
  split at h
  · cases h
    omega
  · split at h
    · cases h
      omega
    · split at h
      · cases h
        omega
      · cases h

/-- Whatever stands in a numeral is a digit, and stands for a number below sixteen. -/
theorem forall_digits {cs : List Char} {ds : List Nat}
    (h : List.Forall₂ (fun c d => value? c = some d) cs ds) :
    (∀ c ∈ cs, ∃ d, value? c = some d) ∧ ∀ d ∈ ds, d < 16 := by
  induction h with
  | nil => exact ⟨fun c hc => (List.not_mem_nil hc).elim, fun d hd => (List.not_mem_nil hd).elim⟩
  | cons hd _ ih =>
    exact ⟨List.forall_mem_cons.2 ⟨⟨_, hd⟩, ih.1⟩, List.forall_mem_cons.2 ⟨value?_lt hd, ih.2⟩⟩

theorem Writes.exists_value? {cs : List Char} {n : Nat} (h : Writes cs n) :
    ∀ c ∈ cs, ∃ d, value? c = some d := by
  obtain ⟨ds, hds, -⟩ := h
  exact (forall_digits hds).1

/-- A number has no more places than there are digits that write it. -/
theorem Writes.lt {cs : List Char} {n : Nat} (h : Writes cs n) : n < 16 ^ cs.length := by
  obtain ⟨ds, hds, rfl⟩ := h
  have hlt := Nat.ofDigits_lt_base_pow_length (by decide : 1 < 16)
    fun d hd => (forall_digits hds).2 d (List.mem_reverse.1 hd)
  rwa [List.length_reverse, ← hds.length_eq] at hlt

theorem foldlM_eq_some_iff {cs : List Char} {start n : Nat} :
    cs.foldlM (fun m c => (value? c).map (16 * m + ·)) start = some n ↔
      ∃ ds, List.Forall₂ (fun c d => value? c = some d) cs ds ∧
        ds.foldl (fun m d => 16 * m + d) start = n := by
  induction cs generalizing start with
  | nil => simp
  | cons c cs ih =>
    rw [List.foldlM_cons, Option.bind_eq_bind, Option.bind_eq_some_iff]
    constructor
    · rintro ⟨m, hm, hrest⟩
      obtain ⟨d, hd, rfl⟩ := Option.map_eq_some_iff.1 hm
      obtain ⟨ds, hds, rfl⟩ := ih.1 hrest
      exact ⟨d :: ds, .cons hd hds, rfl⟩
    · rintro ⟨ds, hds, rfl⟩
      cases hds with
      | cons hd hds => exact ⟨_, by rw [hd, Option.map_some], ih.2 ⟨_, hds, rfl⟩⟩

/-- Digits are read to the number that they write. -/
theorem read?_eq_some_iff {cs : List Char} {n : Nat} : read? cs = some n ↔ Writes cs n := by
  have hvalue (ds : List Nat) : Nat.ofDigits 16 ds.reverse = ds.foldl (fun m d => 16 * m + d) 0 := by
    rw [Nat.ofDigits_eq_foldr, List.foldr_reverse]
    simp only [Nat.cast_id, Nat.add_comm]
  simp only [read?, foldlM_eq_some_iff, Writes, hvalue]

/-- Zeros in front of a number do not count. -/
theorem read?_dropWhile_zero (cs : List Char) : read? (cs.dropWhile (· == '0')) = read? cs := by
  induction cs with
  | nil => rfl
  | cons c cs ih =>
    rw [List.dropWhile_cons]
    split
    · next hc =>
      rw [ih, beq_iff_eq.1 hc]
      rfl
    · rfl

/-- The shortest form of a number in enough digits. -/
theorem read?_shortest {n : Nat} (h : n < 16 ^ 8) : read? (shortest n) = some n := by
  have hfixed := read?_fixed h
  rw [← read?_dropWhile_zero] at hfixed
  simp only [shortest]
  split
  · next hempty =>
    rw [List.isEmpty_iff.1 hempty] at hfixed
    exact hfixed
  · exact hfixed

theorem shortest_ne_nil (n : Nat) : shortest n ≠ [] := by
  simp only [shortest]
  split
  · simp
  · next hempty => simpa using hempty

/-- A number below `2 ^ 16` has at most four digits. -/
theorem length_shortest_le {n : Nat} (h : n < 16 ^ 4) : (shortest n).length ≤ 4 := by
  have hzero : ∀ k ≥ 4, digit (n / 16 ^ k % 16) = '0' := by
    intro k hk
    rw [Nat.div_eq_of_lt (h.trans_le (Nat.pow_le_pow_right (by decide) hk))]
    rfl
  have hdrop : (fixed 8 n).dropWhile (· == '0') = (fixed 4 n).dropWhile (· == '0') := by
    rw [fixed_succ, fixed_succ, fixed_succ, fixed_succ, hzero 7 (by decide), hzero 6 (by decide),
      hzero 5 (by decide), hzero 4 (by decide)]
    rfl
  have hlength := (List.dropWhile_sublist (· == '0') (l := fixed 4 n)).length_le
  rw [length_fixed] at hlength
  simp only [shortest, hdrop]
  split
  · decide
  · exact hlength

end AccountService.Hex
