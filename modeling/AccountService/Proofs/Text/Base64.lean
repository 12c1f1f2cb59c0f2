import AccountService.Text.Base64

/-!
# Base 64 has one written form

Reading base 64 accepts exactly what writing produces, in both variants: every list of octets
has one written form, and a text that is no written form reads as nothing. Six-bit groups are
compared first, as numbers; the digits that stand for them come second.

## Main definitions

* `Base64.Variant.Lawful` — the digits of a variant are told apart, and none of them is the fill

## Main statements

* `Base64.octets?_eq_some_iff` — six-bit groups and octets determine each other
* `Base64.decode?_eq_some_iff` — reading accepts exactly the written form
* `Base64.dot_notMem_encode` — a token's variant writes no dot
-/

namespace AccountService.Base64

/-! ### Six-bit groups -/

theorem ofNat_eq_of_toNat {n : Nat} {a : UInt8} (h : n = a.toNat) : UInt8.ofNat n = a := by
  rw [h, UInt8.ofNat_toNat]

/-- Every group of octets is six bits wide. -/
theorem lt_of_mem_sextets {bs : Octets} {d : Nat} (h : d ∈ sextets bs) : d < 64 := by
  fun_induction sextets bs with
  | case1 => simp at h
  | case2 a =>
    have ha := a.toNat_lt
    simp only [List.mem_cons, List.not_mem_nil, or_false] at h
    omega
  | case3 a b =>
    have ha := a.toNat_lt
    have hb := b.toNat_lt
    simp only [List.mem_cons, List.not_mem_nil, or_false] at h
    omega
  | case4 a b c rest ih =>
    have ha := a.toNat_lt
    have hb := b.toNat_lt
    have hc := c.toNat_lt
    simp only [List.mem_cons] at h
    rcases h with h | h | h | h | h
    · omega
    · omega
    · omega
    · omega
    · exact ih h

/-- The groups of octets read back as the octets. -/
theorem octets?_sextets (bs : Octets) : octets? (sextets bs) = some bs := by
  fun_induction sextets bs with
  | case1 => rfl
  | case2 a =>
    have hz : a.toNat % 4 * 16 % 16 = 0 := by omega
    have ha : a.toNat / 4 * 4 + a.toNat % 4 * 16 / 16 = a.toNat := by omega
    simp only [octets?, hz, if_true, ofNat_eq_of_toNat ha]
  | case3 a b =>
    have hb := b.toNat_lt
    have hz : b.toNat % 16 * 4 % 4 = 0 := by omega
    have ha : a.toNat / 4 * 4 + (a.toNat % 4 * 16 + b.toNat / 16) / 16 = a.toNat := by omega
    have hb' : (a.toNat % 4 * 16 + b.toNat / 16) % 16 * 16 + b.toNat % 16 * 4 / 4 = b.toNat := by
      omega
    simp only [octets?, hz, if_true, ofNat_eq_of_toNat ha, ofNat_eq_of_toNat hb']
  | case4 a b c rest ih =>
    have hb := b.toNat_lt
    have hc := c.toNat_lt
    have ha' : a.toNat / 4 * 4 + (a.toNat % 4 * 16 + b.toNat / 16) / 16 = a.toNat := by omega
    have hb' : (a.toNat % 4 * 16 + b.toNat / 16) % 16 * 16 +
        (b.toNat % 16 * 4 + c.toNat / 64) / 4 = b.toNat := by omega
    have hc' : (b.toNat % 16 * 4 + c.toNat / 64) % 4 * 64 + c.toNat % 64 = c.toNat := by omega
    simp only [octets?, ih, Option.map_some, ofNat_eq_of_toNat ha', ofNat_eq_of_toNat hb',
      ofNat_eq_of_toNat hc']

theorem toNat_firstOctet {a b : Nat} (ha : a < 64) (hb : b < 64) :
    (UInt8.ofNat (a * 4 + b / 16)).toNat = a * 4 + b / 16 := by
  rw [UInt8.toNat_ofNat']
  omega

theorem toNat_secondOctet {b c : Nat} (hc : c < 64) :
    (UInt8.ofNat (b % 16 * 16 + c / 4)).toNat = b % 16 * 16 + c / 4 := by
  rw [UInt8.toNat_ofNat']
  omega

theorem toNat_thirdOctet {c d : Nat} (hd : d < 64) :
    (UInt8.ofNat (c % 4 * 64 + d)).toNat = c % 4 * 64 + d := by
  rw [UInt8.toNat_ofNat']
  omega

/-- Groups that read as octets are the groups of these octets. -/
theorem sextets_of_octets? {ds : List Nat} {bs : Octets} (hds : ∀ d ∈ ds, d < 64)
    (h : octets? ds = some bs) : sextets bs = ds := by
  fun_induction octets? ds generalizing bs with
  | case1 =>
    obtain rfl : [] = bs := by simpa using h
    rfl
  | case2 => simp at h
  | case3 a b hz =>
    -- Two digits make one octet, and the four bits that are left over are zero.
    have ha := hds a (by simp)
    have hb := hds b (by simp)
    obtain rfl := Option.some.inj h
    simp only [sextets, toNat_firstOctet ha hb]
    congr 1
    · omega
    congr 1
    omega
  | case4 => simp at h
  | case5 a b c hz =>
    -- Three digits make two octets, and the two bits that are left over are zero.
    have ha := hds a (by simp)
    have hb := hds b (by simp)
    have hc := hds c (by simp)
    obtain rfl := Option.some.inj h
    simp only [sextets, toNat_firstOctet ha hb, toNat_secondOctet hc]
    congr 1
    · omega
    congr 1
    · omega
    congr 1
    omega
  | case6 => simp at h
  | case7 a b c d rest ih =>
    have ha := hds a (by simp)
    have hb := hds b (by simp)
    have hc := hds c (by simp)
    have hd := hds d (by simp)
    obtain ⟨tail, htail, rfl⟩ := Option.map_eq_some_iff.1 h
    have hrest : sextets tail = rest := ih (fun x hx => hds x (by simp [hx])) htail
    simp only [sextets, toNat_firstOctet ha hb, toNat_secondOctet hc, toNat_thirdOctet hd, hrest]
    congr 1
    · omega
    congr 1
    · omega
    congr 1
    · omega
    congr 1
    omega

theorem octets?_eq_some_iff {ds : List Nat} {bs : Octets} (hds : ∀ d ∈ ds, d < 64) :
    octets? ds = some bs ↔ ds = sextets bs := by
  constructor
  · intro h
    exact (sextets_of_octets? hds h).symm
  · rintro rfl
    exact octets?_sextets bs

/-! ### Digits -/

/-- The digits of a variant are told apart, and none of them is the fill. -/
structure Variant.Lawful (v : Variant) : Prop where
  value?_digit : ∀ n < 64, v.value? (v.digit n) = some n
  digit_ne_fill : ∀ n < 64, v.digit n ≠ '='

theorem lawful_standard : standard.Lawful := ⟨by decide, by decide⟩

theorem lawful_urlSafe : urlSafe.Lawful := ⟨by decide, by decide⟩

theorem ofNat_of_toNat {c : Char} {n : Nat} (h : n = c.toNat) : Char.ofNat n = c := by
  rw [h, Char.ofNat_toNat]

/-- A character with a value is the digit of that value. -/
theorem Variant.digit_of_value? {v : Variant} {c : Char} {n : Nat} (h : v.value? c = some n) :
    v.digit n = c ∧ n < 64 := by
  -- Capital letters, small letters, digits, and the two that the variants write differently.
  simp only [Variant.value?] at h
  split at h
  · obtain rfl := Option.some.inj h
    have h26 : c.toNat - 65 < 26 := by omega
    refine ⟨?_, by omega⟩
    rw [Variant.digit, if_pos h26]
    exact ofNat_of_toNat (by omega)
  split at h
  · obtain rfl := Option.some.inj h
    have h26 : ¬ c.toNat - 97 + 26 < 26 := by omega
    have h52 : c.toNat - 97 + 26 < 52 := by omega
    refine ⟨?_, by omega⟩
    rw [Variant.digit, if_neg h26, if_pos h52]
    exact ofNat_of_toNat (by omega)
  split at h
  · obtain rfl := Option.some.inj h
    have h26 : ¬ c.toNat - 48 + 52 < 26 := by omega
    have h52 : ¬ c.toNat - 48 + 52 < 52 := by omega
    have h62 : c.toNat - 48 + 52 < 62 := by omega
    refine ⟨?_, by omega⟩
    rw [Variant.digit, if_neg h26, if_neg h52, if_pos h62]
    exact ofNat_of_toNat (by omega)
  split at h
  · next hc =>
    obtain rfl := Option.some.inj h
    exact ⟨by simp [Variant.digit, hc], by omega⟩
  split at h
  · next hc =>
    obtain rfl := Option.some.inj h
    exact ⟨by simp [Variant.digit, hc], by omega⟩
  · cases h

theorem mapM_value?_eq_some {v : Variant} {cs : List Char} {ds : List Nat}
    (h : cs.mapM v.value? = some ds) : cs = ds.map v.digit ∧ ∀ d ∈ ds, d < 64 := by
  induction cs generalizing ds with
  | nil =>
    obtain rfl : [] = ds := by simpa using h
    simp
  | cons c cs ih =>
    rw [List.mapM_cons] at h
    simp only [Option.bind_eq_bind, Option.bind_eq_some_iff, Option.pure_def,
      Option.some.injEq] at h
    obtain ⟨d, hd, rest, hrest, rfl⟩ := h
    obtain ⟨hdigit, hlt⟩ := Variant.digit_of_value? hd
    obtain ⟨hcs, hall⟩ := ih hrest
    refine ⟨by rw [List.map_cons, hdigit, ← hcs], ?_⟩
    intro x hx
    rcases List.mem_cons.1 hx with rfl | hx
    · exact hlt
    · exact hall x hx

theorem Variant.Lawful.mapM_value? {v : Variant} (hv : v.Lawful) {ds : List Nat}
    (hds : ∀ d ∈ ds, d < 64) : (ds.map v.digit).mapM v.value? = some ds := by
  induction ds with
  | nil => rfl
  | cons d ds ih =>
    rw [List.map_cons, List.mapM_cons, hv.value?_digit d (hds d (by simp)),
      ih fun x hx => hds x (by simp [hx])]
    rfl

/-! ### Written forms -/

/-- The digits of a text in front of its fill. -/
theorem takeWhile_digits {v : Variant} (hv : v.Lawful) {ds : List Nat} (hds : ∀ d ∈ ds, d < 64)
    (n : Nat) :
    (ds.map v.digit ++ List.replicate n '=').takeWhile (· != '=') = ds.map v.digit := by
  rw [List.takeWhile_append_of_pos]
  · cases n <;> simp [List.replicate_succ]
  · intro c hc
    obtain ⟨d, hd, rfl⟩ := List.mem_map.1 hc
    simpa using hv.digit_ne_fill d (hds d hd)

theorem decode?_encode {v : Variant} (hv : v.Lawful) (bs : Octets) :
    decode? v (encode v bs) = some bs := by
  have hlt : ∀ d ∈ sextets bs, d < 64 := fun d hd => lt_of_mem_sextets hd
  cases hp : v.padded with
  | false => simp [decode?, encode, hp, hv.mapM_value? hlt, octets?_sextets]
  | true =>
    simp [decode?, encode, hp, takeWhile_digits hv hlt, hv.mapM_value? hlt, octets?_sextets]

/-- A text whose digits in front of a fill read as octets is made of these digits. -/
theorem digits_of_bind {v : Variant} {digits : List Char} {bs : Octets}
    (h : (digits.mapM v.value?).bind octets? = some bs) : digits = (sextets bs).map v.digit := by
  obtain ⟨ds, hds, hbs⟩ := Option.bind_eq_some_iff.1 h
  obtain ⟨hdigits, hlt⟩ := mapM_value?_eq_some hds
  rwa [(octets?_eq_some_iff hlt).1 hbs] at hdigits

theorem eq_encode_of_decode? {v : Variant} {cs : List Char} {bs : Octets}
    (h : decode? v cs = some bs) : cs = encode v bs := by
  simp only [decode?, Option.ite_none_right_eq_some] at h
  obtain ⟨hcs, hread⟩ := h
  -- Where fill is written the text has to be its digits with exactly the fill that they need.
  cases hp : v.padded with
  | false =>
    simp only [hp, Bool.false_eq_true, if_false] at hread
    simpa [encode, hp] using digits_of_bind hread
  | true =>
    simp only [hp, if_true] at hcs hread
    rw [digits_of_bind hread] at hcs
    simpa [encode, hp] using hcs

/-- Reading accepts exactly the written form. -/
theorem decode?_eq_some_iff {v : Variant} (hv : v.Lawful) {cs : List Char} {bs : Octets} :
    decode? v cs = some bs ↔ cs = encode v bs := by
  constructor
  · exact eq_encode_of_decode?
  · rintro rfl
    exact decode?_encode hv bs

/-- What is written consists of digits and of fill. -/
theorem eq_fill_or_digit_of_mem_encode {v : Variant} {bs : Octets} {c : Char}
    (h : c ∈ encode v bs) : c = '=' ∧ v.padded = true ∨ ∃ n < 64, c = v.digit n := by
  have hdigit : c ∈ (sextets bs).map v.digit → ∃ n < 64, c = v.digit n := by
    intro hc
    obtain ⟨d, hd, rfl⟩ := List.mem_map.1 hc
    exact ⟨d, lt_of_mem_sextets hd, rfl⟩
  cases hp : v.padded with
  | false =>
    simp only [encode, hp, Bool.false_eq_true, if_false] at h
    exact .inr (hdigit h)
  | true =>
    simp only [encode, hp, if_true] at h
    rcases List.mem_append.1 h with h | h
    · exact .inr (hdigit h)
    · exact .inl ⟨List.eq_of_mem_replicate h, rfl⟩

/-- Nothing that a token is made of contains the dot that separates its parts. -/
theorem dot_notMem_encode (bs : Octets) : '.' ∉ encode urlSafe bs := by
  have hdigit : ∀ n < 64, urlSafe.digit n ≠ '.' := by decide
  intro h
  rcases eq_fill_or_digit_of_mem_encode h with ⟨hdot, -⟩ | ⟨n, hn, hdot⟩
  · cases hdot
  · exact hdigit n hn hdot.symm

/-- Only the empty list of octets is written as nothing. -/
theorem encode_ne_nil {v : Variant} (hv : v.Lawful) {bs : Octets} (h : bs ≠ []) :
    encode v bs ≠ [] := by
  intro hnil
  have hempty : encode v [] = [] := by
    cases hp : v.padded <;> simp [encode, hp, sextets, padding]
  have hread := decode?_encode hv bs
  rw [hnil, ← hempty, decode?_encode hv] at hread
  exact h (Option.some.inj hread).symm

end AccountService.Base64
