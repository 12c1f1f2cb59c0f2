import AccountService.Text.Numeral
import Mathlib.Data.List.Induction
import Mathlib.Data.List.TakeWhile

/-!
# What decimal numerals write

A numeral is read to the number that its digits write in base ten, with a sign in front if there is
one, and only if that number is of the range. A numeral of any length that is beyond the range is
refused, and so is everything that is no numeral. Digits are read from the left, so that the first
place at which the number leaves the range or a digit is missing decides which of both it is.

## Main definitions

* `Numeral.Decimal`, `Numeral.Natural`, `Numeral.Whole` — what digits and numerals write
* `Numeral.Fault`, `Numeral.NaturalFault`, `Numeral.WholeFault` — why they are refused

## Main statements

* `Numeral.readNat_eq_ok_iff`, `Numeral.readInt_eq_ok_iff` — what is read
* `Numeral.readNat_eq_error_iff`, `Numeral.readInt_eq_error_iff` — what is refused, and why
* `Numeral.decimal_zeros_ofNat` — the shortest numeral writes its number, also after zeros
-/

namespace AccountService.Numeral

/-- Decimal digits write a number: there is at least one, and the most significant is the first. -/
structure Decimal (cs : List Char) (n : Nat) : Prop where
  ne_nil : cs ≠ []
  isDigit : ∀ c ∈ cs, c.isDigit = true
  value : Nat.ofDigitChars 10 cs 0 = n

/-- A natural number is written by its digits; a plus sign may stand in front. -/
inductive Natural : List Char → Nat → Prop where
  | digits {cs : List Char} {n : Nat} (h : Decimal cs n) : Natural cs n
  | plus {cs : List Char} {n : Nat} (h : Decimal cs n) : Natural ('+' :: cs) n

/-- A whole number is a natural number or the digits of one after a minus sign. -/
inductive Whole : List Char → Int → Prop where
  | natural {cs : List Char} {n : Nat} (h : Natural cs n) : Whole cs n
  | minus {cs : List Char} {n : Nat} (h : Decimal cs n) : Whole ('-' :: cs) (-n)

/-- Why characters are not the digits of a number up to a bound. -/
inductive Fault (bound : Nat) (beyond : Error) (cs : List Char) : Error → Prop where
  /-- The number of the digits in front is beyond the bound. -/
  | beyond {front rest : List Char} {n : Nat} (h : cs = front ++ rest) (hfront : Decimal front n)
      (hn : bound < n) : Fault bound beyond cs beyond
  /-- The number of the digits in front is within it, and no digit follows where there should be
  one. -/
  | invalid {front rest : List Char} (h : cs = front ++ rest)
      (hfront : ∀ c ∈ front, c.isDigit = true) (hn : Nat.ofDigitChars 10 front 0 ≤ bound)
      (hrest : front = [] ∧ rest = [] ∨ ∃ c ∈ rest.head?, c.isDigit = false) :
      Fault bound beyond cs .invalidDigit

variable {bound acc n : Nat} {beyond err : Error} {cs front rest : List Char} {c : Char}

/-! ### Digits -/

theorem digit?_of_isDigit (h : c.isDigit = true) : digit? c = some (c.toNat - '0'.toNat) := by
  exact if_pos (Char.isDigit_iff_toNat.1 h)

theorem digit?_of_not_isDigit (h : c.isDigit = false) : digit? c = none := by
  refine if_neg fun hrange => ?_
  rw [Char.isDigit_iff_toNat.2 hrange] at h
  cases h

/-- Further digits only make a number larger. -/
theorem le_ofDigitChars (cs : List Char) (n : Nat) : n ≤ Nat.ofDigitChars 10 cs n := by
  rw [Nat.ofDigitChars_eq_ofDigitChars_zero]
  calc n ≤ 10 ^ cs.length * n := Nat.le_mul_of_pos_left n (Nat.pow_pos (by decide))
    _ ≤ 10 ^ cs.length * n + Nat.ofDigitChars 10 cs 0 := Nat.le_add_right _ _

/-- Digits within the bound are read, and what follows them is read on top of their number. -/
theorem digits_append (hfront : ∀ c ∈ front, c.isDigit = true)
    (hn : Nat.ofDigitChars 10 front acc ≤ bound) :
    digits bound beyond acc (front ++ rest) =
      digits bound beyond (Nat.ofDigitChars 10 front acc) rest := by
  induction front generalizing acc with
  | nil => rfl
  | cons c front ih =>
    obtain ⟨hc, hfront⟩ := List.forall_mem_cons.1 hfront
    rw [Nat.ofDigitChars_cons, Nat.mul_comm] at hn ⊢
    have hnext : acc * 10 + (c.toNat - '0'.toNat) ≤ bound := Nat.le_trans (le_ofDigitChars front _) hn
    rw [List.cons_append, digits, digit?_of_isDigit hc]
    simp only [if_pos hnext]
    exact ih hfront hn

/-- Digits whose number is beyond the bound are refused, whatever follows them. -/
theorem digits_beyond (hfront : ∀ c ∈ front, c.isDigit = true) (hacc : acc ≤ bound)
    (hn : bound < Nat.ofDigitChars 10 front acc) :
    digits bound beyond acc (front ++ rest) = .error beyond := by
  induction front generalizing acc with
  | nil => exact absurd hn (Nat.not_lt.2 hacc)
  | cons c front ih =>
    obtain ⟨hc, hfront⟩ := List.forall_mem_cons.1 hfront
    rw [Nat.ofDigitChars_cons, Nat.mul_comm] at hn
    rw [List.cons_append, digits, digit?_of_isDigit hc]
    by_cases hnext : acc * 10 + (c.toNat - '0'.toNat) ≤ bound
    · simp only [if_pos hnext]
      exact ih hfront hnext hn
    · simp only [if_neg hnext]

theorem digits_of_head (h : ∃ c ∈ rest.head?, c.isDigit = false) :
    digits bound beyond acc rest = .error .invalidDigit := by
  obtain ⟨c, hc, hdigit⟩ := h
  obtain ⟨rest, rfl⟩ := List.head?_eq_some_iff.1 hc
  rw [digits, digit?_of_not_isDigit hdigit]

/-- Characters are digits and then none, or no more characters. -/
theorem exists_digits (cs : List Char) :
    ∃ front rest, cs = front ++ rest ∧ (∀ c ∈ front, c.isDigit = true) ∧
      (rest = [] ∨ ∃ c ∈ rest.head?, c.isDigit = false) := by
  refine ⟨cs.takeWhile Char.isDigit, cs.dropWhile Char.isDigit,
    List.takeWhile_append_dropWhile.symm, fun c hc => List.mem_takeWhile_imp hc, ?_⟩
  have hstop := List.head?_dropWhile_not Char.isDigit cs
  cases hrest : cs.dropWhile Char.isDigit with
  | nil => exact .inl rfl
  | cons c rest =>
    rw [hrest] at hstop
    exact .inr ⟨c, rfl, hstop⟩

theorem unsigned_eq_digits (h : cs ≠ []) : unsigned bound beyond cs = digits bound beyond 0 cs := by
  cases cs with
  | nil => exact absurd rfl h
  | cons c cs => rfl

theorem unsigned_eq_ok_iff :
    unsigned bound beyond cs = .ok n ↔ Decimal cs n ∧ n ≤ bound := by
  constructor
  · intro h
    have hne : cs ≠ [] := by
      rintro rfl
      cases h
    rw [unsigned_eq_digits hne] at h
    obtain ⟨front, rest, rfl, hfront, hrest⟩ := exists_digits cs
    rcases Nat.lt_or_ge bound (Nat.ofDigitChars 10 front 0) with hlarge | hfit
    · rw [digits_beyond hfront (Nat.zero_le _) hlarge] at h
      cases h
    · rw [digits_append hfront hfit] at h
      rcases hrest with rfl | hrest
      · cases h
        rw [List.append_nil] at hne ⊢
        exact ⟨⟨hne, hfront, rfl⟩, hfit⟩
      · rw [digits_of_head hrest] at h
        cases h
  · rintro ⟨⟨hne, hdigits, rfl⟩, hfit⟩
    have happend : digits bound beyond 0 (cs ++ []) =
        digits bound beyond (Nat.ofDigitChars 10 cs 0) [] := digits_append hdigits hfit
    rw [List.append_nil] at happend
    rw [unsigned_eq_digits hne, happend, digits]

theorem unsigned_eq_error_iff :
    unsigned bound beyond cs = .error err ↔ Fault bound beyond cs err := by
  constructor
  · intro h
    by_cases hne : cs = []
    · subst hne
      cases h
      have hnil : ([] : List Char) = [] ++ [] := rfl
      exact .invalid hnil (by simp) (Nat.zero_le _) (.inl ⟨rfl, rfl⟩)
    rw [unsigned_eq_digits hne] at h
    obtain ⟨front, rest, rfl, hfront, hrest⟩ := exists_digits cs
    rcases Nat.lt_or_ge bound (Nat.ofDigitChars 10 front 0) with hlarge | hfit
    · rw [digits_beyond hfront (Nat.zero_le _) hlarge] at h
      cases h
      refine .beyond rfl ⟨?_, hfront, rfl⟩ hlarge
      rintro rfl
      exact absurd hlarge (Nat.not_lt_zero _)
    · rw [digits_append hfront hfit] at h
      rcases hrest with rfl | hrest
      · cases h
      · rw [digits_of_head hrest] at h
        cases h
        exact .invalid rfl hfront hfit (.inr hrest)
  · intro h
    cases h with
    | @beyond front rest n h hfront hn =>
      obtain ⟨hne, hdigits, rfl⟩ := hfront
      rw [h, unsigned_eq_digits (by simp [hne]), digits_beyond hdigits (Nat.zero_le _) hn]
    | @invalid front rest h hdigits hn hrest =>
      rcases hrest with ⟨rfl, rfl⟩ | hrest
      · rw [h]
        rfl
      · have hne : rest ≠ [] := by
          rintro rfl
          obtain ⟨c, hc, -⟩ := hrest
          cases hc
        rw [h, unsigned_eq_digits (by simp [hne]), digits_append hdigits hn, digits_of_head hrest]

/-! ### Signs -/

/-- Why a text is no numeral of a natural number up to a bound. -/
inductive NaturalFault (bound : Nat) : List Char → Error → Prop where
  | empty : NaturalFault bound [] .empty
  | digits {cs : List Char} {err : Error} (hne : cs ≠ []) (hsign : '+' ∉ cs.head?)
      (h : Fault bound .tooLarge cs err) : NaturalFault bound cs err
  | plus {cs : List Char} {err : Error} (h : Fault bound .tooLarge cs err) :
      NaturalFault bound ('+' :: cs) err

/-- Why a text is no numeral of a whole number from `-(bound + 1)` up to `bound`. -/
inductive WholeFault (bound : Nat) : List Char → Error → Prop where
  | natural {cs : List Char} {err : Error} (hsign : '-' ∉ cs.head?) (h : NaturalFault bound cs err) :
      WholeFault bound cs err
  | minus {cs : List Char} {err : Error} (h : Fault (bound + 1) .tooSmall cs err) :
      WholeFault bound ('-' :: cs) err

/-- A sign is no digit. -/
theorem Decimal.notMem_head? (h : Decimal cs n) {sign : Char} (hsign : sign.isDigit = false) :
    sign ∉ cs.head? := by
  intro hmem
  rw [h.isDigit sign (List.mem_of_head? hmem)] at hsign
  cases hsign

theorem readNat_of_plus {s : String} (h : s.toList = '+' :: cs) :
    readNat bound s = unsigned bound .tooLarge cs := by
  simp only [readNat, h]

theorem readNat_of_digits {s : String} (hne : s.toList ≠ []) (hsign : '+' ∉ s.toList.head?) :
    readNat bound s = unsigned bound .tooLarge s.toList := by
  rw [readNat]
  split
  · next hnil => exact absurd hnil hne
  · next hplus =>
    rw [hplus] at hsign
    exact absurd rfl hsign
  · rfl

theorem readNat_eq_ok_iff {s : String} :
    readNat bound s = .ok n ↔ Natural s.toList n ∧ n ≤ bound := by
  constructor
  · intro h
    rw [readNat] at h
    split at h
    · cases h
    · next rest hplus =>
      obtain ⟨hdecimal, hfit⟩ := unsigned_eq_ok_iff.1 h
      rw [hplus]
      exact ⟨.plus hdecimal, hfit⟩
    · obtain ⟨hdecimal, hfit⟩ := unsigned_eq_ok_iff.1 h
      exact ⟨.digits hdecimal, hfit⟩
  · rintro ⟨hnatural, hfit⟩
    generalize hcs : s.toList = cs at hnatural
    cases hnatural with
    | digits hdecimal =>
      subst hcs
      rw [readNat_of_digits hdecimal.ne_nil (hdecimal.notMem_head? (by decide))]
      exact unsigned_eq_ok_iff.2 ⟨hdecimal, hfit⟩
    | plus hdecimal =>
      rw [readNat_of_plus hcs]
      exact unsigned_eq_ok_iff.2 ⟨hdecimal, hfit⟩

theorem readNat_eq_error_iff {s : String} :
    readNat bound s = .error err ↔ NaturalFault bound s.toList err := by
  constructor
  · intro h
    by_cases hne : s.toList = []
    · rw [readNat, hne] at h
      cases h
      rw [hne]
      exact .empty
    by_cases hsign : '+' ∈ s.toList.head?
    · obtain ⟨rest, hplus⟩ := List.head?_eq_some_iff.1 hsign
      rw [readNat_of_plus hplus] at h
      rw [hplus]
      exact .plus (unsigned_eq_error_iff.1 h)
    · rw [readNat_of_digits hne hsign] at h
      exact .digits hne hsign (unsigned_eq_error_iff.1 h)
  · intro h
    generalize hcs : s.toList = cs at h
    cases h with
    | empty => rw [readNat, hcs]
    | digits hne hsign h =>
      subst hcs
      rw [readNat_of_digits hne hsign]
      exact unsigned_eq_error_iff.2 h
    | plus h =>
      rw [readNat_of_plus hcs]
      exact unsigned_eq_error_iff.2 h

theorem readInt_of_minus {s : String} (h : s.toList = '-' :: cs) :
    readInt bound s = (unsigned (bound + 1) .tooSmall cs).map fun n => -Int.ofNat n := by
  simp only [readInt, h]

/-- Without a minus sign natural numbers are read. -/
theorem readInt_of_natural {s : String} (h : '-' ∉ s.toList.head?) :
    readInt bound s = (readNat bound s).map Int.ofNat := by
  by_cases hne : s.toList = []
  · simp only [readInt, readNat, hne]
    rfl
  by_cases hsign : '+' ∈ s.toList.head?
  · obtain ⟨rest, hplus⟩ := List.head?_eq_some_iff.1 hsign
    rw [readNat_of_plus hplus]
    simp only [readInt, hplus]
  · rw [readNat_of_digits hne hsign, readInt]
    split
    · next hnil => exact absurd hnil hne
    · next hplus =>
      rw [hplus] at hsign
      exact absurd rfl hsign
    · next hminus =>
      rw [hminus] at h
      exact absurd rfl h
    · rfl

theorem map_eq_ok_iff {ε α β : Type} {f : α → β} {x : Except ε α} {b : β} :
    x.map f = .ok b ↔ ∃ a, x = .ok a ∧ f a = b := by
  cases x <;> simp [Except.map]

theorem map_eq_error_iff {ε α β : Type} {f : α → β} {x : Except ε α} {e : ε} :
    x.map f = .error e ↔ x = .error e := by
  cases x <;> simp [Except.map]

theorem Natural.notMem_head? (h : Natural cs n) : '-' ∉ cs.head? := by
  cases h with
  | digits h => exact h.notMem_head? (by decide)
  | plus h => simp

theorem readInt_eq_ok_iff {s : String} {z : Int} :
    readInt bound s = .ok z ↔ Whole s.toList z ∧ -(bound + 1) ≤ z ∧ z ≤ bound := by
  constructor
  · intro h
    by_cases hsign : '-' ∈ s.toList.head?
    · obtain ⟨rest, hminus⟩ := List.head?_eq_some_iff.1 hsign
      rw [readInt_of_minus hminus, map_eq_ok_iff] at h
      obtain ⟨n, hn, rfl⟩ := h
      obtain ⟨hdecimal, hfit⟩ := unsigned_eq_ok_iff.1 hn
      rw [hminus]
      exact ⟨.minus hdecimal, by simp only [Int.ofNat_eq_natCast]; omega,
        by simp only [Int.ofNat_eq_natCast]; omega⟩
    · rw [readInt_of_natural hsign, map_eq_ok_iff] at h
      obtain ⟨n, hn, rfl⟩ := h
      obtain ⟨hnatural, hfit⟩ := readNat_eq_ok_iff.1 hn
      exact ⟨.natural hnatural, by simp only [Int.ofNat_eq_natCast]; omega,
        by simp only [Int.ofNat_eq_natCast]; omega⟩
  · rintro ⟨hwhole, hlow, hhigh⟩
    generalize hcs : s.toList = cs at hwhole
    cases hwhole with
    | @natural _ n hnatural =>
      subst hcs
      rw [readInt_of_natural hnatural.notMem_head?, map_eq_ok_iff]
      exact ⟨n, readNat_eq_ok_iff.2 ⟨hnatural, by omega⟩, rfl⟩
    | @minus _ n hdecimal =>
      rw [readInt_of_minus hcs, map_eq_ok_iff]
      exact ⟨n, unsigned_eq_ok_iff.2 ⟨hdecimal, by omega⟩, rfl⟩

theorem readInt_eq_error_iff {s : String} :
    readInt bound s = .error err ↔ WholeFault bound s.toList err := by
  constructor
  · intro h
    by_cases hsign : '-' ∈ s.toList.head?
    · obtain ⟨rest, hminus⟩ := List.head?_eq_some_iff.1 hsign
      rw [readInt_of_minus hminus, map_eq_error_iff] at h
      rw [hminus]
      exact .minus (unsigned_eq_error_iff.1 h)
    · rw [readInt_of_natural hsign, map_eq_error_iff] at h
      exact .natural hsign (readNat_eq_error_iff.1 h)
  · intro h
    generalize hcs : s.toList = cs at h
    cases h with
    | natural hsign h =>
      subst hcs
      rw [readInt_of_natural hsign, map_eq_error_iff]
      exact readNat_eq_error_iff.2 h
    | minus h =>
      rw [readInt_of_minus hcs, map_eq_error_iff]
      exact unsigned_eq_error_iff.2 h

/-- A numeral writes one number. -/
theorem Whole.unique {z z' : Int} (h : Whole cs z) (h' : Whole cs z') : z = z' := by
  -- Both are read from the text against one range.
  have hread {z : Int} {bound : Nat} (h : Whole cs z) (hfit : z.natAbs ≤ bound) :
      readInt bound (String.ofList cs) = .ok z := by
    rw [readInt_eq_ok_iff, String.toList_ofList]
    exact ⟨h, by omega, by omega⟩
  have hsame := (hread h (Nat.le_max_left _ _)).symm.trans (hread h' (Nat.le_max_right _ _))
  exact Except.ok.inj hsame

/-! ### The shortest numeral -/

/-- The shortest numeral of a number writes it, after any number of zeros. -/
theorem decimal_zeros_ofNat (zeros n : Nat) :
    Decimal (List.replicate zeros '0' ++ ofNat n) n where
  ne_nil := by simp [ofNat]
  isDigit := by
    intro c hc
    rcases List.mem_append.1 hc with hc | hc
    · rw [List.eq_of_mem_replicate hc]
      decide
    · exact Nat.isDigit_of_mem_toDigits (by decide) (by decide) hc
  value := by
    rw [Nat.ofDigitChars_append, Nat.ofDigitChars_replicate_zero, Nat.mul_zero, ofNat,
      Nat.ofDigitChars_toDigits (by decide) (by decide)]

theorem decimal_ofNat (n : Nat) : Decimal (ofNat n) n := decimal_zeros_ofNat 0 n

theorem digitChar_of_isDigit (h : c.isDigit = true) : Nat.digitChar (c.toNat - '0'.toNat) = c := by
  have hchar : ∀ d < 10, Nat.digitChar d = Char.ofNat ('0'.toNat + d) := by decide
  obtain ⟨hlow, hhigh⟩ := Char.isDigit_iff_toNat.1 h
  have hzero : '0'.toNat = 48 := rfl
  have hnine : '9'.toNat = 57 := rfl
  rw [hchar _ (by omega), Nat.add_sub_cancel' hlow, Char.ofNat_toNat]

/-- A number has one numeral without superfluous zeros. -/
theorem eq_ofNat_of_decimal (h : Decimal cs n) (hzero : '0' ∈ cs.head? → cs = ['0']) :
    cs = ofNat n := by
  obtain ⟨hne, hdigits, rfl⟩ := h
  -- Digit by digit from the last one; what stands in front of it is no zero.
  induction cs using List.reverseRecOn with
  | nil => exact absurd rfl hne
  | append_singleton front c ih =>
    obtain ⟨hfront, hc⟩ := List.forall_mem_append.1 hdigits
    have hdigit : c.isDigit = true := hc c (List.mem_singleton_self c)
    have hvalue : Nat.ofDigitChars 10 (front ++ [c]) 0 =
        10 * Nat.ofDigitChars 10 front 0 + (c.toNat - '0'.toNat) := by
      rw [Nat.ofDigitChars_append, Nat.ofDigitChars_cons, Nat.ofDigitChars_nil]
    have hlt : c.toNat - '0'.toNat < 10 := by
      have hhigh := (Char.isDigit_iff_toNat.1 hdigit).2
      have hzero : '0'.toNat = 48 := rfl
      have hnine : '9'.toNat = 57 := rfl
      omega
    have hlast : ofNat (c.toNat - '0'.toNat) = [c] := by
      rw [ofNat, Nat.toDigits_of_lt_base hlt, digitChar_of_isDigit hdigit]
    rw [hvalue]
    by_cases hempty : front = []
    · subst hempty
      rw [Nat.ofDigitChars_nil, Nat.mul_zero, Nat.zero_add, hlast, List.nil_append]
    · have hnonzero : '0' ∉ front.head? := by
        intro hmem
        have hsingle := hzero (by rw [List.head?_append, Option.mem_def.1 hmem]; rfl)
        have hlength := congrArg List.length hsingle
        simp [hempty] at hlength
      have hih := ih (fun hmem => absurd hmem hnonzero) hempty hfront
      have hpos : 0 < Nat.ofDigitChars 10 front 0 := by
        refine Nat.pos_of_ne_zero fun h0 => hnonzero ?_
        rw [hih, h0]
        rfl
      calc front ++ [c]
          = ofNat (Nat.ofDigitChars 10 front 0) ++ ofNat (c.toNat - '0'.toNat) := by
            rw [← hih, hlast]
        _ = ofNat (10 * Nat.ofDigitChars 10 front 0 + (c.toNat - '0'.toNat)) :=
            Nat.toDigits_append_toDigits (by decide) hpos hlt

/-- Only the numeral of zero starts with a zero. -/
theorem eq_zero_of_mem_head?_ofNat (h : '0' ∈ (ofNat n).head?) : n = 0 := by
  induction n using Nat.strongRecOn with
  | ind n ih =>
    rcases Nat.lt_or_ge n 10 with hn | hn
    · have hdigit : ∀ d < 10, '0' ∈ (ofNat d).head? → d = 0 := by decide
      exact hdigit n hn h
    · rw [ofNat, Nat.toDigits_of_base_le (by decide) hn, List.head?_append] at h
      have hfront : '0' ∈ (ofNat (n / 10)).head? := by
        cases hhead : (ofNat (n / 10)).head? with
        | none => simp [ofNat] at hhead
        | some c =>
          rw [ofNat] at hhead
          rw [hhead] at h
          exact h
      have hzero := ih (n / 10) (by omega) hfront
      omega

end AccountService.Numeral
