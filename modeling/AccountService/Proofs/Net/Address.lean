import AccountService.Net.Address
import AccountService.Proofs.Text.Blank
import AccountService.Proofs.Text.Hex
import AccountService.Proofs.Text.Numeral

/-!
# The texts of addresses

Which texts are addresses is said here by a grammar, without a reader: four octets in decimal, eight
groups in hexadecimal, or fewer groups around the place where some were left out. The reader goes
from left to right and takes whatever it can, yet it accepts exactly these texts: after a group there
is a colon or nothing, so octets are never mistaken for a group nor a group for octets.

## Main definitions

* `Net.Address.Group`, `Net.Address.Row` — a group and groups in a row, as they are written
* `Net.Address.Writes` — the address that a text writes

## Main statements

* `Net.Address.octets?_eq_some_iff`, `Net.Address.group?_eq_some_iff` — the parts of an address
* `Net.Address.groups_eq_of_row`, `Net.Address.row_of_groups_eq` — groups in a row
* `Net.Address.parse?_eq_some_iff` — a text is read as the address that it writes
-/

namespace AccountService.Net.Address

/-! ### The grammar -/

/-- A group as it is written: one to four hexadecimal digits of either case. -/
structure Group (cs : List Char) (g : Nat) : Prop where
  ne_nil : cs ≠ []
  length_le : cs.length ≤ 4
  writes : Hex.Writes cs g

/-- Groups in a row, and the texts that they are written in. The last text may be four octets, which
make two groups; the flag tells whether it is. -/
inductive Row : Bool → List (List Char) → List Nat → Prop where
  | nil : Row false [] []
  | octets (a b c d : BitVec 8) :
      Row true [octetChars a.toNat b.toNat c.toNat d.toNat]
        [256 * a.toNat + b.toNat, 256 * c.toNat + d.toNat]
  | cons {q : Bool} {cs : List Char} {g : Nat} {pieces : List (List Char)} {gs : List Nat}
      (h : Group cs g) (hrest : Row q pieces gs) : Row q (cs :: pieces) (g :: gs)

/-- The address that a text writes: four octets, or eight groups separated by colons. At least one
group that is zero, and as many in a row as one likes, may be left out between two colons, once and
not after octets. -/
inductive Writes : List Char → Address → Prop where
  | octets (a b c d : BitVec 8) :
      Writes (octetChars a.toNat b.toNat c.toNat d.toNat) (.v4 a b c d)
  | full {q : Bool} {pieces : List (List Char)} {gs : List Nat} (h : Row q pieces gs)
      (hlength : gs.length = 8) : Writes ([':'].intercalate pieces) (ofGroups gs)
  | short {q : Bool} {front back : List (List Char)} {gs hs : List Nat} (hfront : Row false front gs)
      (hback : Row q back hs) (hlength : gs.length + hs.length < 8) :
      Writes ([':'].intercalate front ++ ':' :: ':' :: [':'].intercalate back)
        (ofGroups (gs ++ List.replicate (8 - gs.length - hs.length) 0 ++ hs))

variable {cs ds rest : List Char} {n a b c d g limit : Nat} {q first : Bool}
  {pieces : List (List Char)} {gs : List Nat}

/-! ### Octets -/

theorem isDigit_eq :
    (fun c : Char => decide (48 ≤ c.toNat) && decide (c.toNat ≤ 57)) = Char.isDigit := by
  funext c
  rw [Bool.eq_iff_iff, Char.isDigit_iff_toNat, Bool.and_eq_true, decide_eq_true_eq,
    decide_eq_true_eq]
  rfl

/-- An octet is read from its shortest numeral, and from nothing else. -/
theorem octet?_eq_some_iff :
    octet? cs = some (n, rest) ↔
      n < 256 ∧ cs = Numeral.ofNat n ++ rest ∧ ∀ e ∈ rest.head?, e.isDigit = false := by
  have hvalue (ds : List Char) :
      ds.foldl (fun n c => 10 * n + (c.toNat - 48)) 0 = Nat.ofDigitChars 10 ds 0 := rfl
  simp only [octet?, isDigit_eq, hvalue, Text.drop_length_takeWhile, Option.ite_none_left_eq_some,
    Bool.or_eq_true, List.isEmpty_iff, decide_eq_true_eq, Bool.and_eq_true, not_or, not_and,
    Nat.not_lt, Option.some.injEq, Prod.mk.injEq]
  constructor
  · rintro ⟨⟨⟨⟨hne, hlength⟩, hzero⟩, hlarge⟩, rfl, rfl⟩
    have hdecimal : Numeral.Decimal (cs.takeWhile Char.isDigit)
        (Nat.ofDigitChars 10 (cs.takeWhile Char.isDigit) 0) :=
      ⟨hne, fun e he => List.mem_takeWhile_imp he, rfl⟩
    have hsingle : '0' ∈ (cs.takeWhile Char.isDigit).head? →
        cs.takeWhile Char.isDigit = ['0'] := by
      intro hmem
      obtain ⟨tail, htail⟩ := List.head?_eq_some_iff.1 hmem
      have hle := hzero hmem
      rw [htail, List.length_cons] at hle
      rw [htail, List.length_eq_zero_iff.1 (by omega : tail.length = 0)]
    refine ⟨by omega, ?_, fun e he => Text.eq_false_of_mem_head?_dropWhile he⟩
    rw [← Numeral.eq_ofNat_of_decimal hdecimal hsingle, List.takeWhile_append_dropWhile]
  · rintro ⟨hn, rfl, hrest⟩
    have hdecimal := Numeral.decimal_ofNat n
    obtain ⟨htake, hdrop⟩ := Text.cut_append (p := Char.isDigit) hdecimal.isDigit hrest
    rw [htake, hdrop, hdecimal.value]
    have hlength : (Numeral.ofNat n).length ≤ 3 :=
      (Nat.length_toDigits_le_iff (by decide) (by decide)).2 (by omega)
    refine ⟨⟨⟨⟨hdecimal.ne_nil, hlength⟩, fun hmem => ?_⟩, by omega⟩, rfl, rfl⟩
    rw [Numeral.eq_zero_of_mem_head?_ofNat hmem]
    decide

theorem expect?_eq_some_iff {e : Char} : expect? e cs = some rest ↔ cs = e :: rest := by
  cases cs with
  | nil => simp [expect?]
  | cons e' cs =>
    rw [expect?, Option.ite_none_right_eq_some, Option.some.injEq, List.cons.injEq]

/-- Four octets are read from their shortest numerals with dots between them. -/
theorem octets?_eq_some_iff :
    octets? cs = some ((a, b, c, d), rest) ↔
      (a < 256 ∧ b < 256 ∧ c < 256 ∧ d < 256) ∧ cs = octetChars a b c d ++ rest ∧
        ∀ e ∈ rest.head?, e.isDigit = false := by
  have hdot (tail : List Char) : ∀ e ∈ ('.' :: tail).head?, e.isDigit = false := by
    rintro e ⟨⟩
    rfl
  simp only [octets?, bind, Option.bind_eq_some_iff, Prod.exists, octet?_eq_some_iff,
    expect?_eq_some_iff, pure, Option.some.injEq, Prod.mk.injEq]
  constructor
  · rintro ⟨a, _, ⟨ha, rfl, -⟩, _, rfl, b, _, ⟨hb, rfl, -⟩, _, rfl, c, _, ⟨hc, rfl, -⟩, _, rfl, d, _,
      ⟨hd, rfl, hrest⟩, ⟨rfl, rfl, rfl, rfl⟩, rfl⟩
    exact ⟨⟨ha, hb, hc, hd⟩, by simp [octetChars], hrest⟩
  · rintro ⟨⟨ha, hb, hc, hd⟩, rfl, hrest⟩
    exact ⟨a, _, ⟨ha, by simp [octetChars], hdot _⟩, _, rfl, b, _, ⟨hb, rfl, hdot _⟩, _, rfl, c, _,
      ⟨hc, rfl, hdot _⟩, _, rfl, d, _, ⟨hd, rfl, hrest⟩, ⟨rfl, rfl, rfl, rfl⟩, rfl⟩

/-! ### Groups -/

theorem isSome_value?_of_isDigit {e : Char} (h : e.isDigit = true) :
    (Hex.value? e).isSome = true := by
  have hrange : 48 ≤ e.toNat ∧ e.toNat ≤ 57 := Char.isDigit_iff_toNat.1 h
  simp only [Hex.value?, if_pos hrange, Option.isSome_some]

theorem Group.isSome (h : Group cs g) : ∀ e ∈ cs, (Hex.value? e).isSome = true := by
  obtain ⟨ds, hds, -⟩ := h.writes
  clear h
  induction hds with
  | nil => simp
  | cons hd _ ih => exact List.forall_mem_cons.2 ⟨by rw [hd]; rfl, ih⟩

/-- A group is read from one to four digits, up to what is no digit. -/
theorem group?_eq_some_iff :
    group? cs = some (g, rest) ↔
      ∃ ds, Group ds g ∧ cs = ds ++ rest ∧ ∀ e ∈ rest.head?, (Hex.value? e).isSome = false := by
  simp only [group?, Text.drop_length_takeWhile, Option.ite_none_left_eq_some, Bool.or_eq_true,
    List.isEmpty_iff, decide_eq_true_eq, not_or, Nat.not_lt, Option.map_eq_some_iff,
    Prod.mk.injEq]
  constructor
  · rintro ⟨⟨hne, hlength⟩, g, hread, rfl, rfl⟩
    exact ⟨_, ⟨hne, hlength, Hex.read?_eq_some_iff.1 hread⟩, List.takeWhile_append_dropWhile.symm,
      fun e he => Text.eq_false_of_mem_head?_dropWhile (p := fun e => (Hex.value? e).isSome) he⟩
  · rintro ⟨ds, hgroup, rfl, hrest⟩
    obtain ⟨htake, hdrop⟩ := Text.cut_append (p := fun e => (Hex.value? e).isSome) hgroup.isSome hrest
    rw [htake, hdrop]
    exact ⟨⟨hgroup.ne_nil, hgroup.length_le⟩, g, Hex.read?_eq_some_iff.2 hgroup.writes, rfl, rfl⟩

/-- Groups in a row, each in its text: a colon stands in front of each but perhaps the first. -/
def rowChars : Bool → List (List Char) → List Char
  | _, [] => []
  | first, cs :: pieces => (if first then cs else ':' :: cs) ++ rowChars false pieces

theorem intercalate_eq_rowChars (pieces : List (List Char)) :
    [':'].intercalate pieces = rowChars true pieces := by
  cases pieces with
  | nil => rfl
  | cons cs pieces =>
    induction pieces generalizing cs with
    | nil => simp [rowChars]
    | cons ds pieces ih =>
      rw [List.intercalate_cons_cons, ih]
      simp [rowChars]

/-- Where a row of groups ends: with nothing, or in front of two colons. -/
def Ends (rest : List Char) : Prop := rest = [] ∨ ∃ tail, rest = ':' :: ':' :: tail

theorem Ends.head? (h : Ends rest) : ∀ e ∈ rest.head?, e = ':' := by
  rcases h with rfl | ⟨tail, rfl⟩ <;> rintro e ⟨⟩
  rfl

/-- After a group of a row there is a colon or nothing. -/
theorem eq_colon_of_mem_head? (h : Ends rest) :
    ∀ e ∈ (rowChars false pieces ++ rest).head?, e = ':' := by
  cases pieces with
  | nil => exact h.head?
  | cons cs pieces =>
    rintro e ⟨⟩
    rfl

/-- A group is not taken for octets, since no dot follows it. -/
theorem octets?_of_group (h : Group ds g) (hrest : ∀ e ∈ rest.head?, e = ':') :
    octets? (ds ++ rest) = none := by
  refine Option.eq_none_iff_forall_ne_some.2 ?_
  rintro ⟨⟨a, b, c, d⟩, tail⟩ hsome
  obtain ⟨-, hchars, -⟩ := octets?_eq_some_iff.1 hsome
  -- Both sides are cut at the first character that is no hexadecimal digit.
  have hcolon : ∀ e ∈ rest.head?, (Hex.value? e).isSome = false := by
    intro e he
    rw [hrest e he]
    rfl
  have hdot : ∀ e ∈ ('.' :: (Numeral.ofNat b ++ '.' :: (Numeral.ofNat c ++ '.' :: Numeral.ofNat d)) ++
      tail).head?, (Hex.value? e).isSome = false := by
    rintro e ⟨⟩
    rfl
  have hcut := (Text.cut_append (p := fun e => (Hex.value? e).isSome) h.isSome hcolon).2
  have hcut' := (Text.cut_append (p := fun e => (Hex.value? e).isSome)
    (fun e he => isSome_value?_of_isDigit ((Numeral.decimal_ofNat a).isDigit e he)) hdot).2
  rw [hchars, octetChars, List.append_assoc, hcut'] at hcut
  rw [← hcut] at hrest
  exact absurd (hrest '.' rfl) (by decide)

theorem octets?_of_ends (h : Ends rest) : octets? rest = none := by
  rcases h with rfl | ⟨tail, rfl⟩ <;> simp [octets?, octet?]

theorem group?_of_ends (h : Ends rest) : group? rest = none := by
  rcases h with rfl | ⟨tail, rfl⟩ <;> simp [group?, Hex.value?]

/-! ### Rows of groups -/

theorem Row.octets' (ha : a < 256) (hb : b < 256) (hc : c < 256) (hd : d < 256) :
    Row true [octetChars a b c d] [256 * a + b, 256 * c + d] := by
  have h := Row.octets (.ofNat 8 a) (.ofNat 8 b) (.ofNat 8 c) (.ofNat 8 d)
  simpa only [BitVec.toNat_ofNat, Nat.mod_eq_of_lt ha, Nat.mod_eq_of_lt hb, Nat.mod_eq_of_lt hc,
    Nat.mod_eq_of_lt hd] using h

section Reading

variable {body : List Char}

/-- Octets end a row. -/
theorem groups_of_octets (limit : Nat) (first : Bool)
    (hoctets : octets? body = some ((a, b, c, d), rest)) :
    groups (limit + 2) first (if first then body else ':' :: body) =
      ([256 * a + b, 256 * c + d], rest, true) := by
  cases first <;> simp [groups, expect?, hoctets]

/-- After a group the row goes on. -/
theorem groups_of_group (limit : Nat) (first : Bool) (hoctets : octets? body = none)
    (hgroup : group? body = some (g, rest)) :
    groups (limit + 1) first (if first then body else ':' :: body) =
      (g :: (groups limit false rest).1, (groups limit false rest).2) := by
  cases first <;> simp [groups, expect?, hoctets, hgroup]

/-- Nothing is taken off where neither can be read. -/
theorem groups_of_none (limit : Nat) (first : Bool) (hoctets : octets? body = none)
    (hgroup : group? body = none) :
    groups (limit + 1) first (if first then body else ':' :: body) =
      ([], if first then body else ':' :: body, false) := by
  cases first <;> simp [groups, expect?, hoctets, hgroup]

end Reading

theorem groups_of_ends (h : Ends rest) : groups limit first rest = ([], rest, false) := by
  cases limit with
  | zero => rfl
  | succ limit =>
    cases first with
    | true => exact groups_of_none limit true (octets?_of_ends h) (group?_of_ends h)
    | false =>
      rcases h with rfl | ⟨tail, rfl⟩
      · rfl
      · have hoctets : octets? (':' :: tail) = none := by simp [octets?, octet?]
        exact groups_of_none limit false hoctets (by simp [group?, Hex.value?])

theorem rowChars_cons_append (first : Bool) (cs : List Char) (pieces : List (List Char))
    (rest : List Char) :
    rowChars first (cs :: pieces) ++ rest =
      if first then cs ++ (rowChars false pieces ++ rest)
      else ':' :: (cs ++ (rowChars false pieces ++ rest)) := by
  cases first <;> simp [rowChars]

/-- A row that is short enough is read whole. -/
theorem groups_eq_of_row (limit : Nat) (first : Bool) (h : Row q pieces gs)
    (hlimit : gs.length ≤ limit) (hrest : Ends rest) :
    groups limit first (rowChars first pieces ++ rest) = (gs, rest, q) := by
  induction h generalizing limit first with
  | nil => exact groups_of_ends hrest
  | octets a b c d =>
    obtain ⟨limit, rfl⟩ := Nat.exists_eq_add_of_le' hlimit
    have hread : octets? (octetChars a.toNat b.toNat c.toNat d.toNat ++ rest) =
        some ((a.toNat, b.toNat, c.toNat, d.toNat), rest) := by
      refine octets?_eq_some_iff.2 ⟨⟨a.isLt, b.isLt, c.isLt, d.isLt⟩, rfl, fun e he => ?_⟩
      rw [hrest.head? e he]
      rfl
    rw [rowChars_cons_append, rowChars, List.nil_append]
    exact groups_of_octets limit first hread
  | @cons _ cs g pieces gs h _ ih =>
    obtain ⟨limit, rfl⟩ := Nat.exists_eq_add_of_le' (Nat.le_trans (Nat.le_add_left 1 _) hlimit)
    have hcolon : ∀ e ∈ (rowChars false pieces ++ rest).head?, e = ':' := eq_colon_of_mem_head? hrest
    have hread : group? (cs ++ (rowChars false pieces ++ rest)) =
        some (g, rowChars false pieces ++ rest) := by
      refine group?_eq_some_iff.2 ⟨cs, h, rfl, fun e he => ?_⟩
      rw [hcolon e he]
      rfl
    rw [rowChars_cons_append]
    refine (groups_of_group limit first (octets?_of_group h hcolon) hread).trans ?_
    rw [ih limit false (Nat.le_of_succ_le_succ hlimit)]

/-- What is read from a text is a row, and the text begins with it. -/
theorem row_of_groups_eq (h : groups limit first cs = (gs, rest, q)) :
    ∃ pieces, Row q pieces gs ∧ gs.length ≤ limit ∧ cs = rowChars first pieces ++ rest := by
  have hbody {first : Bool} {cs body : List Char}
      (h : (if first then some cs else expect? ':' cs) = some body) :
      cs = if first then body else ':' :: body := by
    cases first with
    | false => exact expect?_eq_some_iff.1 h
    | true => exact Option.some.inj h
  fun_induction groups limit first cs generalizing gs rest q with
  | case1 first | case2 _ first | case4 _ first =>
    obtain ⟨rfl, rfl, rfl⟩ : [] = gs ∧ _ = rest ∧ false = q := by simpa only [Prod.mk.injEq] using h
    exact ⟨[], .nil, Nat.zero_le _, by cases first <;> rfl⟩
  | case3 limit first cs body hlead a b c d _ hread =>
    obtain ⟨rfl, rfl, rfl⟩ : _ = gs ∧ _ = rest ∧ true = q := by simpa only [Prod.mk.injEq] using h
    obtain ⟨hlimit, hoctets⟩ := Option.ite_none_right_eq_some.1 hread
    obtain ⟨⟨ha, hb, hc, hd⟩, rfl, -⟩ := octets?_eq_some_iff.1 hoctets
    refine ⟨[octetChars a b c d], .octets' ha hb hc hd, Nat.succ_le_succ hlimit, ?_⟩
    rw [hbody hlead, rowChars_cons_append, rowChars, List.nil_append]
  | case5 limit first cs body hlead _ g _ hgroup gs' _ _ hgroups ih =>
    obtain ⟨rfl, rfl, rfl⟩ : _ = gs ∧ _ = rest ∧ _ = q := by simpa only [Prod.mk.injEq] using h
    obtain ⟨pieces, hrow, hlimit, rfl⟩ := ih hgroups
    obtain ⟨ds, hds, rfl, -⟩ := group?_eq_some_iff.1 hgroup
    exact ⟨ds :: pieces, .cons hds hrow, Nat.succ_le_succ hlimit,
      (hbody hlead).trans (rowChars_cons_append ..).symm⟩

/-! ### Addresses -/

/-- A row is read as four octets and nothing else only if it is of two groups. -/
theorem length_eq_two_of_octets? (h : Row q pieces gs) (hlength : gs.length ≤ 8) (hrest : Ends rest)
    {r : Nat × Nat × Nat × Nat} (hread : octets? (rowChars true pieces ++ rest) = some (r, [])) :
    gs.length = 2 ∧ rest = [] := by
  obtain ⟨a, b, c, d⟩ := r
  obtain ⟨⟨ha, hb, hc, hd⟩, hchars, -⟩ := octets?_eq_some_iff.1 hread
  -- The text is a row in two ways, and a row is read in one way only.
  have hgroups := groups_eq_of_row 8 true h hlength hrest
  have hoctets := groups_eq_of_row 8 true (.octets' ha hb hc hd)
    (by decide : 2 ≤ 8) (.inl rfl)
  rw [hchars, List.append_nil] at hgroups
  simp only [rowChars, if_true, List.append_nil] at hoctets
  obtain ⟨rfl, rfl, -⟩ : gs = _ ∧ rest = [] ∧ q = true := by
    simpa only [Prod.mk.injEq] using hgroups.symm.trans hoctets
  exact ⟨rfl, rfl⟩

theorem sixteen?_full (h : Row q pieces gs) (hlength : gs.length = 8) :
    sixteen? ([':'].intercalate pieces) = some (ofGroups gs, []) := by
  have hgroups := groups_eq_of_row 8 true h hlength.le (.inl rfl)
  rw [List.append_nil, ← intercalate_eq_rowChars] at hgroups
  rw [sixteen?, hgroups]
  exact if_pos hlength

theorem sixteen?_short {front back : List (List Char)} {hs : List Nat} (hfront : Row false front gs)
    (hback : Row q back hs) (hlength : gs.length + hs.length < 8) :
    sixteen? ([':'].intercalate front ++ ':' :: ':' :: [':'].intercalate back) =
      some (ofGroups (gs ++ List.replicate (8 - gs.length - hs.length) 0 ++ hs), []) := by
  have hgroups := groups_eq_of_row 8 true hfront (by omega)
    (.inr ⟨[':'].intercalate back, rfl⟩)
  have hgroups' := groups_eq_of_row (7 - gs.length) true hback (by omega)
    (.inl rfl)
  rw [List.append_nil, ← intercalate_eq_rowChars] at hgroups'
  rw [← intercalate_eq_rowChars] at hgroups
  simp only [sixteen?, hgroups, if_neg (show ¬gs.length = 8 by omega), Bool.false_eq_true, if_false,
    hgroups']

theorem writes_of_sixteen? {address : Address} (h : sixteen? cs = some (address, [])) :
    Writes cs address := by
  rcases hgroups : groups 8 true cs with ⟨gs, rest, q⟩
  obtain ⟨pieces, hrow, hlimit, rfl⟩ := row_of_groups_eq hgroups
  rw [← intercalate_eq_rowChars]
  simp only [sixteen?, hgroups] at h
  split at h
  · next hlength =>
    obtain ⟨rfl, rfl⟩ : ofGroups gs = address ∧ rest = [] := by
      simpa only [Option.some.injEq, Prod.mk.injEq] using h
    rw [List.append_nil]
    exact .full hrow hlength
  · next hlength =>
    obtain ⟨hq, hshort⟩ := Option.ite_none_left_eq_some.1 h
    obtain rfl : q = false := Bool.eq_false_iff.2 hq
    split at hshort
    · next tail =>
      rcases hgroups' : groups (7 - gs.length) true tail with ⟨hs, rest, q'⟩
      obtain ⟨back, hback, hlimit', rfl⟩ := row_of_groups_eq hgroups'
      rw [hgroups'] at hshort
      obtain ⟨rfl, rfl⟩ : _ = address ∧ rest = [] := by
        simpa only [Option.some.injEq, Prod.mk.injEq] using hshort
      rw [List.append_nil, ← intercalate_eq_rowChars]
      exact .short hrow hback (by omega)
    · cases hshort

/-- A text is read as the address that it writes. -/
theorem parse?_eq_some_iff {s : String} {address : Address} :
    parse? s = some address ↔ Writes s.toList address := by
  have hsixteen (hne : ∀ r, octets? s.toList ≠ some (r, []))
      (h : sixteen? s.toList = some (address, [])) : parse? s = some address := by
    rw [parse?, h]
    split
    · next hread => exact absurd hread (hne _)
    · rfl
  constructor
  · intro h
    rw [parse?] at h
    split at h
    · next a b c d hread =>
      obtain ⟨⟨ha, hb, hc, hd⟩, hchars, -⟩ := octets?_eq_some_iff.1 hread
      cases h
      have hwrites := Writes.octets (.ofNat 8 a) (.ofNat 8 b) (.ofNat 8 c) (.ofNat 8 d)
      simpa only [BitVec.toNat_ofNat, Nat.mod_eq_of_lt ha, Nat.mod_eq_of_lt hb, Nat.mod_eq_of_lt hc,
        Nat.mod_eq_of_lt hd, hchars, List.append_nil] using hwrites
    · split at h
      · next hread =>
        cases h
        exact writes_of_sixteen? hread
      · cases h
  · intro h
    generalize hcs : s.toList = cs at h
    cases h with
    | octets a b c d =>
      have hread : octets? s.toList = some ((a.toNat, b.toNat, c.toNat, d.toNat), []) :=
        octets?_eq_some_iff.2
          ⟨⟨a.isLt, b.isLt, c.isLt, d.isLt⟩, by rw [hcs, List.append_nil], by simp⟩
      simp [parse?, hread]
    | full h hlength =>
      refine hsixteen (fun r hread => ?_) (by rw [hcs, sixteen?_full h hlength])
      rw [hcs, intercalate_eq_rowChars, ← List.append_nil (rowChars _ _)] at hread
      have := (length_eq_two_of_octets? h hlength.le (.inl rfl) hread).1
      omega
    | short hfront hback hlength =>
      refine hsixteen (fun r hread => ?_) (by rw [hcs, sixteen?_short hfront hback hlength])
      rw [hcs, intercalate_eq_rowChars] at hread
      exact absurd (length_eq_two_of_octets? hfront (by omega) (.inr ⟨_, rfl⟩) hread).2
        (List.cons_ne_nil _ _)

/-! ### The characters of an address -/

theorem isBlank_of_isSome_value? {e : Char} (h : (Hex.value? e).isSome = true) :
    Text.isBlank e = false := by
  simp only [Hex.value?] at h
  simp only [Text.isBlank, Bool.or_eq_false_iff, Bool.and_eq_false_iff, decide_eq_false_iff_not,
    beq_eq_false_iff_ne]
  split at h
  · omega
  · split at h
    · omega
    · split at h
      · omega
      · cases h

theorem isBlank_of_isDigit {e : Char} (h : e.isDigit = true) : Text.isBlank e = false :=
  isBlank_of_isSome_value? (isSome_value?_of_isDigit h)

theorem isBlank_of_mem_octetChars {e : Char} (h : e ∈ octetChars a b c d) :
    Text.isBlank e = false := by
  have hdigit {n : Nat} (h : e ∈ Numeral.ofNat n) : Text.isBlank e = false :=
    isBlank_of_isDigit ((Numeral.decimal_ofNat n).isDigit e h)
  simp only [octetChars, List.mem_append, List.mem_cons] at h
  rcases h with h | rfl | h | rfl | h | rfl | h
  all_goals first | exact hdigit h | rfl

theorem mem_rowChars {e : Char} (h : e ∈ rowChars first pieces) :
    e = ':' ∨ ∃ cs ∈ pieces, e ∈ cs := by
  induction pieces generalizing first with
  | nil => cases h
  | cons cs pieces ih =>
    rw [rowChars, List.mem_append] at h
    rcases h with h | h
    · cases first with
      | true => exact .inr ⟨cs, List.mem_cons_self, h⟩
      | false =>
        rcases List.mem_cons.1 h with rfl | h
        · exact .inl rfl
        · exact .inr ⟨cs, List.mem_cons_self, h⟩
    · obtain rfl | ⟨ds, hds, he⟩ := ih h
      · exact .inl rfl
      · exact .inr ⟨ds, List.mem_cons_of_mem cs hds, he⟩

theorem Row.isBlank_of_mem (h : Row q pieces gs) {e : Char} (he : e ∈ [':'].intercalate pieces) :
    Text.isBlank e = false := by
  rw [intercalate_eq_rowChars] at he
  obtain rfl | ⟨ds, hds, hmem⟩ := mem_rowChars he
  · rfl
  · clear he
    induction h with
    | nil => cases hds
    | octets =>
      rw [List.mem_singleton.1 hds] at hmem
      exact isBlank_of_mem_octetChars hmem
    | cons h _ ih =>
      rcases List.mem_cons.1 hds with rfl | hds
      · exact isBlank_of_isSome_value? (h.isSome e hmem)
      · exact ih hds

/-- No character of an address is blank. -/
theorem Writes.isBlank_of_mem {address : Address} (h : Writes cs address) {e : Char} (he : e ∈ cs) :
    Text.isBlank e = false := by
  cases h with
  | octets => exact isBlank_of_mem_octetChars he
  | full h => exact h.isBlank_of_mem he
  | short hfront hback =>
    rw [List.mem_append, List.mem_cons, List.mem_cons] at he
    rcases he with he | rfl | rfl | he
    · exact hfront.isBlank_of_mem he
    · rfl
    · rfl
    · exact hback.isBlank_of_mem he

theorem Writes.ne_nil {address : Address} (h : Writes cs address) : cs ≠ [] := by
  rintro rfl
  have hparse : parse? "" = some address := parse?_eq_some_iff.2 h
  cases hparse

end AccountService.Net.Address
