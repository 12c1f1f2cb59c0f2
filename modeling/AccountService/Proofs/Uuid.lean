import AccountService.Proofs.Text.Hex
import AccountService.Text.Blank
import AccountService.Uuid

/-!
# Identifiers read back

A text denotes an identifier if thirty-two digits in it write the number of the identifier, in one
of four layouts. A text is read as the identifier that it denotes, and as nothing else. The written
form is one of many texts that denote an identifier, but it denotes no other.

## Main definitions

* `Uuid.Layout`, `Uuid.Denotes` — the texts that denote an identifier

## Main statements

* `Uuid.parse?_eq_some_iff` — a text is read as what it denotes
* `Uuid.denotes_of_mem_forms` — every form in which an identifier is written denotes it
* `Uuid.parse?_text` — the written form reads back
* `Uuid.text_injective` — and tells identifiers apart
-/

namespace AccountService.Uuid

/-! ### What a text denotes -/

/-- The layouts in which the digits of an identifier may stand. -/
inductive Layout (ds : List Char) : List Char → Prop where
  | plain : Layout ds ds
  | grouped : Layout ds (hyphenate ds)
  | urn : Layout ds ("urn:uuid:".toList ++ hyphenate ds)
  | braced : Layout ds ('\x7b' :: (hyphenate ds ++ ['\x7d']))

/-- A text denotes an identifier: thirty-two digits, each in either case, write its number and stand
in one of the layouts. -/
def Denotes (s : String) (u : Uuid) : Prop :=
  ∃ ds, (ds.length = 32 ∧ Hex.Writes ds u.bits.toNat) ∧ Layout ds s.toList

/-! ### Reading digits and groups of digits -/

theorem ofDigits?_eq_some_iff {ds : List Char} {u : Uuid} :
    ofDigits? ds = some u ↔ ds.length = 32 ∧ Hex.Writes ds u.bits.toNat := by
  rw [ofDigits?]
  split
  · next hlength =>
    rw [Option.map_eq_some_iff, and_iff_right hlength]
    constructor
    · rintro ⟨n, hn, rfl⟩
      have hwrites := Hex.read?_eq_some_iff.1 hn
      have hlt : n < 2 ^ 128 := hwrites.lt.trans_eq (by rw [hlength]; rfl)
      rwa [BitVec.toNat_ofNat, Nat.mod_eq_of_lt hlt]
    · intro hwrites
      refine ⟨_, Hex.read?_eq_some_iff.2 hwrites, ?_⟩
      rw [BitVec.ofNat_toNat, BitVec.setWidth_eq]
  · next hlength => exact iff_of_false (fun h => by cases h) fun h => hlength h.1

/-- No digit is taken for a mark of one of the other layouts. -/
theorem ne_mark_of_value? {c : Char} {d : Nat} (h : Hex.value? c = some d) :
    c ≠ '-' ∧ c ≠ '\x7b' ∧ c ≠ 'u' := by
  have hmarks : Hex.value? '-' = none ∧ Hex.value? '\x7b' = none ∧ Hex.value? 'u' = none := by
    decide
  refine ⟨?_, ?_, ?_⟩
  · rintro rfl
    cases hmarks.1.symm.trans h
  · rintro rfl
    cases hmarks.2.1.symm.trans h
  · rintro rfl
    cases hmarks.2.2.symm.trans h

theorem length_hyphenate {ds : List Char} (h : ds.length = 32) : (hyphenate ds).length = 36 := by
  simp [hyphenate, h]

/-- The groups of digits without what stands between them are the digits. -/
theorem filter_hyphenate {ds : List Char} (h : '-' ∉ ds) :
    (hyphenate ds).filter (· != '-') = ds := by
  have hkeep {part : List Char} (hpart : part.Sublist ds) : part.filter (· != '-') = part := by
    rw [List.filter_eq_self]
    intro c hc
    exact bne_iff_ne.2 fun hdash => h (hdash ▸ hpart.subset hc)
  have hpart (m n : Nat) : ((ds.drop m).take n).Sublist ds :=
    (List.take_sublist n _).trans (List.drop_sublist m ds)
  have hdash (cs : List Char) : ('-' :: cs).filter (· != '-') = cs.filter (· != '-') :=
    List.filter_cons_of_neg (by decide)
  simp only [hyphenate, List.filter_append, hdash, hkeep (List.take_sublist 8 ds),
    hkeep (hpart _ _), hkeep (List.drop_sublist 20 ds)]
  -- The groups follow each other without a gap.
  have hjoin (m n : Nat) : (ds.drop m).take n ++ ds.drop (m + n) = ds.drop m := by
    rw [← List.drop_drop, List.take_append_drop]
  rw [hjoin 16 4, hjoin 12 4, hjoin 8 4, List.take_append_drop]

theorem ofGroups?_eq_some_iff {cs : List Char} {u : Uuid} :
    ofGroups? cs = some u ↔ ∃ ds, ofDigits? ds = some u ∧ cs = hyphenate ds := by
  simp only [ofGroups?]
  constructor
  · intro h
    split at h
    · next hgroups => exact ⟨_, h, hgroups.symm⟩
    · cases h
  · rintro ⟨ds, hds, rfl⟩
    have hnone : '-' ∉ ds := by
      intro hdash
      obtain ⟨d, hd⟩ := (ofDigits?_eq_some_iff.1 hds).2.exists_value? _ hdash
      exact (ne_mark_of_value? hd).1 rfl
    rw [filter_hyphenate hnone, if_pos rfl, hds]

/-! ### Reading every layout -/

/-- The first of thirty-two digits is also the first character of their groups, and no mark of
another layout. -/
theorem exists_hyphenate_eq_cons {ds : List Char} {u : Uuid} (h : ofDigits? ds = some u) :
    ∃ c cs, hyphenate ds = c :: cs ∧ c ≠ '\x7b' ∧ c ≠ 'u' := by
  obtain ⟨hlength, hwrites⟩ := ofDigits?_eq_some_iff.1 h
  obtain ⟨c, rest, rfl⟩ := List.exists_cons_of_length_pos (hlength ▸ (by decide : 0 < 32))
  obtain ⟨d, hd⟩ := hwrites.exists_value? c List.mem_cons_self
  exact ⟨c, _, rfl, (ne_mark_of_value? hd).2⟩

/-- Groups of digits are read as what the digits write: their first character is no mark of another
layout. -/
theorem parse?_of_groups {s : String} {ds : List Char} {u : Uuid} (hds : ofDigits? ds = some u)
    (hs : s.toList = hyphenate ds) : parse? s = some u := by
  obtain ⟨c, cs, hfirst, hbrace, hurn⟩ := exists_hyphenate_eq_cons hds
  have hdigits : ofDigits? (hyphenate ds) = none := by
    rw [ofDigits?, if_neg (by rw [length_hyphenate (ofDigits?_eq_some_iff.1 hds).1]; decide)]
  have hnone : "urn:uuid:".toList.isPrefixOf (c :: cs) = false := by
    have hmark : "urn:uuid:".toList = 'u' :: "rn:uuid:".toList := by decide
    rw [hmark, List.isPrefixOf_cons_cons, beq_false_of_ne (Ne.symm hurn), Bool.false_and]
  have hgroups := ofGroups?_eq_some_iff.2 ⟨ds, hds, rfl⟩
  rw [parse?, hs]
  simp only [hdigits]
  rw [hfirst] at hgroups ⊢
  split
  · next inner hinner => exact absurd (List.cons.inj hinner).1 hbrace
  · rw [hnone, if_neg Bool.false_ne_true, hgroups]

theorem parse?_of_urn {s : String} {ds : List Char} {u : Uuid} (hds : ofDigits? ds = some u)
    (hs : s.toList = "urn:uuid:".toList ++ hyphenate ds) : parse? s = some u := by
  have hlength : s.toList.length = 45 := by
    rw [hs, List.length_append, length_hyphenate (ofDigits?_eq_some_iff.1 hds).1]
    decide
  have hdigits : ofDigits? s.toList = none := if_neg (by rw [hlength]; decide)
  have hprefix : "urn:uuid:".toList.isPrefixOf s.toList = true :=
    List.isPrefixOf_iff_prefix.2 ⟨_, hs.symm⟩
  simp only [parse?, hdigits]
  split
  · next inner hinner =>
    rw [hs] at hinner
    exact absurd (List.cons.inj hinner).1 (by decide)
  · rw [if_pos hprefix, hs, List.drop_left]
    exact ofGroups?_eq_some_iff.2 ⟨ds, hds, rfl⟩

theorem parse?_of_braced {s : String} {ds : List Char} {u : Uuid} (hds : ofDigits? ds = some u)
    (hs : s.toList = '\x7b' :: (hyphenate ds ++ ['\x7d'])) : parse? s = some u := by
  have hdigits : ofDigits? ('\x7b' :: (hyphenate ds ++ ['\x7d'])) = none := by
    refine if_neg ?_
    rw [List.length_cons, List.length_append, length_hyphenate (ofDigits?_eq_some_iff.1 hds).1]
    decide
  rw [parse?, hs]
  simp only [hdigits, List.getLast?_concat, if_true, List.dropLast_concat]
  exact ofGroups?_eq_some_iff.2 ⟨ds, hds, rfl⟩

/-- A text is read as the identifier that it denotes. -/
theorem parse?_eq_some_iff {s : String} {u : Uuid} : parse? s = some u ↔ Denotes s u := by
  simp only [Denotes, ← ofDigits?_eq_some_iff]
  constructor
  · intro h
    simp only [parse?] at h
    split at h
    · next v hdigits =>
      obtain rfl := Option.some.inj h
      exact ⟨_, hdigits, .plain⟩
    · split at h
      · next inner hinner =>
        split at h
        · next hlast =>
          obtain ⟨ds, hds, hgroups⟩ := ofGroups?_eq_some_iff.1 h
          refine ⟨ds, hds, ?_⟩
          rw [hinner, ← List.dropLast_append_getLast? _ hlast, hgroups]
          exact .braced
        · cases h
      · split at h
        · next hprefix =>
          obtain ⟨rest, hrest⟩ := List.isPrefixOf_iff_prefix.1 hprefix
          rw [← hrest, List.drop_left] at h
          obtain ⟨ds, hds, rfl⟩ := ofGroups?_eq_some_iff.1 h
          exact ⟨ds, hds, hrest ▸ .urn⟩
        · obtain ⟨ds, hds, hgroups⟩ := ofGroups?_eq_some_iff.1 h
          exact ⟨ds, hds, hgroups ▸ .grouped⟩
  · rintro ⟨ds, hds, hlayout⟩
    generalize hs : s.toList = cs at hlayout
    cases hlayout with
    | plain => simp only [parse?, hs, hds]
    | grouped => exact parse?_of_groups hds hs
    | urn => exact parse?_of_urn hds hs
    | braced => exact parse?_of_braced hds hs

/-! ### Written forms -/

theorem ofDigits?_digits (u : Uuid) : ofDigits? u.digits = some u := by
  have hbound : u.bits.toNat < 16 ^ 32 := by
    have := u.bits.isLt
    omega
  exact ofDigits?_eq_some_iff.2
    ⟨Hex.length_fixed 32 _, Hex.read?_eq_some_iff.1 (Hex.read?_fixed hbound)⟩

/-- Every form in which an identifier is written denotes it. -/
theorem denotes_of_mem_forms {u : Uuid} {s : String} (h : s ∈ [u.text, u.simple, u.urn, u.braced]) :
    Denotes s u := by
  have hdigits := ofDigits?_eq_some_iff.1 u.ofDigits?_digits
  have htext : u.text.toList = hyphenate u.digits := String.toList_ofList
  simp only [List.mem_cons, List.not_mem_nil, or_false] at h
  refine ⟨u.digits, hdigits, ?_⟩
  rcases h with rfl | rfl | rfl | rfl
  · exact htext ▸ .grouped
  · exact (String.toList_ofList : u.simple.toList = u.digits) ▸ .plain
  · rw [urn, String.toList_append, htext]
    exact .urn
  · rw [braced, String.toList_append, String.toList_append, htext]
    exact .braced

/-- The written form reads back. -/
theorem parse?_text (u : Uuid) : parse? u.text = some u :=
  parse?_eq_some_iff.2 (denotes_of_mem_forms List.mem_cons_self)

/-- The written form is not blank. -/
theorem isBlankText_text (u : Uuid) : Text.isBlankText u.text = false := by
  rw [Text.isBlankText, text, String.toList_ofList, List.all_eq_false]
  exact ⟨'-', List.mem_append_right _ List.mem_cons_self, by decide⟩

/-- The written form tells identifiers apart. -/
theorem text_injective : Function.Injective text := by
  intro u v h
  have hu := parse?_text u
  rw [h, parse?_text v] at hu
  exact (Option.some.inj hu).symm

end AccountService.Uuid
