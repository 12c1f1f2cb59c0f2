import AccountService.Proofs.Net.Address

/-!
# Addresses in canonical form

The canonical form of an address is a text that writes it: leaving out a run of zero groups loses
nothing, since the run is the only thing that the place can stand for, and an address of four octets
in disguise is still an address of eight groups.

## Main statements

* `Net.Address.zeros_longestRun` — the run that is left out is of zeros
* `Net.Address.writes_chars` — the canonical form of an address writes it
* `Net.Address.parse?_text` — it is read back
-/

namespace AccountService.Net.Address

variable {g : Nat} {gs : List Nat}

theorem groupChars_eq_intercalate (gs : List Nat) :
    groupChars gs = [':'].intercalate (gs.map Hex.shortest) := by
  fun_induction groupChars gs with
  | case1 => rfl
  | case2 g => simp
  | case3 g h rest ih =>
    rw [ih, List.map_cons, List.map_cons, List.map_cons, List.intercalate_cons_cons]
    simp

theorem group_shortest (h : g < 2 ^ 16) : Group (Hex.shortest g) g where
  ne_nil := Hex.shortest_ne_nil g
  length_le := Hex.length_shortest_le h
  writes := Hex.read?_eq_some_iff.1 (Hex.read?_shortest (h.trans (by decide)))

theorem row_shortest (h : ∀ g ∈ gs, g < 2 ^ 16) : Row false (gs.map Hex.shortest) gs := by
  induction gs with
  | nil => exact .nil
  | cons g gs ih =>
    obtain ⟨hg, hgs⟩ := List.forall_mem_cons.1 h
    exact .cons (group_shortest hg) (ih hgs)

/-! ### The run that is left out -/

theorem zeros_cons (g : Nat) (gs : List Nat) :
    zeros (g :: gs) = if g = 0 then zeros gs + 1 else 0 := by
  by_cases hg : g = 0 <;> simp [zeros, hg]

theorem replicate_append_drop_of_le_zeros {n : Nat} (h : n ≤ zeros gs) :
    List.replicate n 0 ++ gs.drop n = gs := by
  induction n generalizing gs with
  | zero => rfl
  | succ n ih =>
    cases gs with
    | nil => cases h
    | cons g gs =>
      rw [zeros_cons] at h
      split at h
      · next hg =>
        rw [List.replicate_succ, List.cons_append, List.drop_succ_cons, ih (Nat.le_of_succ_le_succ h),
          hg]
      · cases h

/-- The run that is left out is of zeros. -/
theorem zeros_longestRun (gs : List Nat) :
    (longestRun gs).2 ≤ zeros (gs.drop (longestRun gs).1) := by
  rw [longestRun]
  refine List.foldlRecOn (motive := fun best : Nat × Nat => best.2 ≤ zeros (gs.drop best.1)) _ _
    (Nat.zero_le _) fun best hbest i _ => ?_
  dsimp only
  split
  · exact le_rfl
  · exact hbest

/-- A run of zeros stands between what precedes it and what follows it. -/
theorem take_append_replicate_append_drop {start length : Nat}
    (h : length ≤ zeros (gs.drop start)) :
    gs.take start ++ List.replicate length 0 ++ gs.drop (start + length) = gs := by
  rw [List.append_assoc, ← List.drop_drop, replicate_append_drop_of_le_zeros h, List.take_append_drop]

/-! ### The canonical form -/

/-- Eight groups in canonical form. -/
theorem writes_sixteenChars (hlength : gs.length = 8) (h : ∀ g ∈ gs, g < 2 ^ 16) :
    Writes (sixteenChars gs) (ofGroups gs) := by
  have hshortest {hs : List Nat} (hsub : hs ⊆ gs) :
      Row false (hs.map Hex.shortest) hs := row_shortest fun g hg => h g (hsub hg)
  rw [sixteenChars]
  split
  · next hmapped =>
    obtain ⟨g, k, hgk⟩ : ∃ g k, gs.drop 6 = [g, k] :=
      List.length_eq_two.1 (by rw [List.length_drop, hlength])
    obtain rfl : gs = [0, 0, 0, 0, 0, 0xFFFF] ++ [g, k] := by
      rw [← hmapped, ← hgk, List.take_append_drop]
    -- After the marker the last two groups stand as octets.
    have hrow : Row true ["ffff".toList, octetChars (g / 256) (g % 256) (k / 256) (k % 256)]
        [0xFFFF, 256 * (g / 256) + g % 256, 256 * (k / 256) + k % 256] := by
      have hg := h g (by simp)
      have hk := h k (by simp)
      exact .cons (group_shortest (g := 0xFFFF) (by decide))
        (.octets' (by omega) (Nat.mod_lt _ (by decide)) (by omega) (Nat.mod_lt _ (by decide)))
    have hwrites := Writes.short .nil hrow (by simp)
    simpa [Nat.div_add_mod] using hwrites
  · rcases hrun : longestRun gs with ⟨start, length⟩
    have hzeros := zeros_longestRun gs
    rw [hrun] at hzeros
    have hsplit := take_append_replicate_append_drop hzeros
    dsimp only
    split
    · -- Of eight groups so many are left out as are missing in the text.
      have hsum := congrArg List.length hsplit
      simp only [List.length_append, List.length_replicate, hlength] at hsum
      have hwrites := Writes.short (hshortest (List.take_subset start gs))
        (hshortest (List.drop_subset (start + length) gs)) (by omega)
      rw [show 8 - (gs.take start).length - (gs.drop (start + length)).length = length by omega,
        hsplit] at hwrites
      simpa [groupChars_eq_intercalate] using hwrites
    · rw [groupChars_eq_intercalate]
      exact .full (hshortest (List.Subset.refl gs)) hlength

theorem ofGroups_toNat (groups : Vector (BitVec 16) 8) :
    ofGroups (groups.toList.map (·.toNat)) = .v6 groups := by
  rw [ofGroups]
  congr 1
  ext i hi
  simp

/-- The canonical form of an address writes it. -/
theorem writes_chars (address : Address) : Writes address.chars address := by
  cases address with
  | v4 a b c d => exact .octets a b c d
  | v6 groups =>
    have hchars : chars (.v6 groups) = sixteenChars (groups.toList.map (·.toNat)) := rfl
    rw [hchars, ← ofGroups_toNat groups]
    refine writes_sixteenChars (by simp) fun g hg => ?_
    obtain ⟨b, -, rfl⟩ := List.mem_map.1 hg
    exact b.isLt

/-- The canonical form of an address is read back. -/
theorem parse?_text (address : Address) : parse? address.text = some address :=
  parse?_eq_some_iff.2 (by rw [text, String.toList_ofList]; exact writes_chars address)

end AccountService.Net.Address
