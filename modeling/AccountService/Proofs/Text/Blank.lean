import Mathlib.Data.List.DropRight
import AccountService.Text.Blank
import AccountService.Text.Case

/-!
# Trimming

What is trimmed has no blanks at its ends, so that trimming it again changes nothing, and it has
every character that is no blank. A letter is no blank in either case, so that of two texts that are
equal up to the case of ASCII letters both have blanks at their ends or neither.

## Main statements

* `Text.trim_trim` — trimming twice is trimming once
* `Text.exists_surrounding`, `Text.trimWith_append_left`, `Text.trimWith_append_right` — trimming takes
  off what surrounds a text, and nothing else
* `Text.mem_toList_trim` — no character gets lost but blanks
* `Text.trim_ne_empty_iff` — what is not trimmed to nothing
* `Text.trim_eq_self_of_eqIgnoringCase` — whether a text is trimmed does not depend on its case
-/

namespace AccountService.Text

section Class

variable {α : Type} {p : α → Bool} {cs : List α} {c : α}

/-- Neither the first nor the last of what is left is of the class. -/
theorem trimWith_trimWith : trimWith p (trimWith p cs) = trimWith p cs := by
  have hcut : trimWith p cs = (cs.dropWhile p).rdropWhile p := rfl
  have hfront : (trimWith p cs).dropWhile p = trimWith p cs := by
    rw [List.dropWhile_eq_self_iff]
    intro hpos
    -- What is taken off at the end leaves the front as it is.
    have hshort : trimWith p cs <+: cs.dropWhile p := List.rdropWhile_prefix p _
    have hfirst := List.dropWhile_eq_self_iff.1 (List.dropWhile_idempotent p cs)
      (hpos.trans_le hshort.length_le)
    rwa [hshort.getElem hpos]
  calc trimWith p (trimWith p cs)
      = ((trimWith p cs).dropWhile p).rdropWhile p := rfl
    _ = ((cs.dropWhile p).rdropWhile p).rdropWhile p := by rw [hfront, hcut]
    _ = trimWith p cs := List.rdropWhile_idempotent p _

/-- What neither starts nor ends with a member of the class is left as it is. -/
theorem trimWith_eq_self (hfirst : ∀ c ∈ cs.head?, p c = false)
    (hlast : ∀ c ∈ cs.getLast?, p c = false) : trimWith p cs = cs := by
  have hfront : cs.dropWhile p = cs := by
    cases cs with
    | nil => rfl
    | cons c cs => rw [List.dropWhile_cons_of_neg (by simp [hfirst c rfl])]
  have hback : cs.rdropWhile p = cs := by
    rw [List.rdropWhile_eq_self_iff]
    intro hne hmem
    rw [hlast _ (List.getLast_mem_getLast? hne)] at hmem
    cases hmem
  calc trimWith p cs = (cs.dropWhile p).rdropWhile p := rfl
    _ = cs := by rw [hfront, hback]

theorem trimWith_sublist : (trimWith p cs).Sublist cs :=
  (List.rdropWhile_prefix p _).sublist.trans (List.dropWhile_sublist p)

theorem trimWith_map {β : Type} (f : β → α) (l : List β) :
    trimWith p (l.map f) = (trimWith (p ∘ f) l).map f := by
  simp only [trimWith, List.dropWhile_map, ← List.map_reverse]

theorem mem_dropWhile (h : c ∈ cs) (hc : p c = false) : c ∈ cs.dropWhile p := by
  rw [← List.takeWhile_append_dropWhile (p := p) (l := cs)] at h
  rcases List.mem_append.1 h with h | h
  · rw [List.mem_takeWhile_imp h] at hc
    cases hc
  · exact h

theorem mem_trimWith (h : c ∈ cs) (hc : p c = false) : c ∈ trimWith p cs :=
  List.mem_reverse.2 (mem_dropWhile (List.mem_reverse.2 (mem_dropWhile h hc)) hc)

/-- Members of the class in front of a list are taken off. -/
theorem trimWith_append_left {before : List α} (h : ∀ c ∈ before, p c = true) (cs : List α) :
    trimWith p (before ++ cs) = trimWith p cs := by
  rw [trimWith, List.dropWhile_append_of_pos h, trimWith]

/-- So are members of the class at its end. -/
theorem trimWith_append_right {after : List α} (h : ∀ c ∈ after, p c = true) (cs : List α) :
    trimWith p (cs ++ after) = trimWith p cs := by
  rw [trimWith, trimWith, List.dropWhile_append]
  split
  · next hempty => rw [List.dropWhile_eq_nil_iff.2 h, List.isEmpty_iff.1 hempty]
  · rw [List.reverse_append, List.dropWhile_append_of_pos fun c hc => h c (List.mem_reverse.1 hc)]

/-- Nothing else is taken off. -/
theorem exists_surrounding (p : α → Bool) (cs : List α) :
    ∃ before after, (∀ c ∈ before, p c = true) ∧ (∀ c ∈ after, p c = true) ∧
      cs = before ++ trimWith p cs ++ after := by
  have hback : trimWith p cs ++ (cs.dropWhile p).rtakeWhile p = cs.dropWhile p :=
    List.rdropWhile_append_rtakeWhile
  refine ⟨cs.takeWhile p, (cs.dropWhile p).rtakeWhile p, fun c hc => List.mem_takeWhile_imp hc,
    fun c hc => List.mem_rtakeWhile_imp hc, ?_⟩
  rw [List.append_assoc, hback, List.takeWhile_append_dropWhile]

/-- What is left after members of the class does not start with one. -/
theorem eq_false_of_mem_head?_dropWhile (h : c ∈ (cs.dropWhile p).head?) : p c = false := by
  have hnot := List.head?_dropWhile_not p cs
  rwa [Option.mem_def.1 h] at hnot

theorem eq_false_of_mem_head?_trimWith (h : c ∈ (trimWith p cs).head?) : p c = false := by
  obtain ⟨rest, hrest⟩ := List.rdropWhile_prefix p (cs.dropWhile p)
  have hhead : c ∈ (cs.dropWhile p).head? := by
    rw [← hrest, List.head?_append]
    exact Option.or_eq_some_iff.2 (.inl h)
  exact eq_false_of_mem_head?_dropWhile hhead

theorem eq_false_of_mem_getLast?_trimWith (h : c ∈ (trimWith p cs).getLast?) : p c = false := by
  obtain ⟨hne, rfl⟩ := List.mem_getLast?_eq_getLast h
  exact Bool.eq_false_iff.2 (List.rdropWhile_last_not p (cs.dropWhile p) hne)

end Class

/-- What is left of a list after its first members of a class. -/
theorem drop_length_takeWhile {α : Type} (p : α → Bool) (cs : List α) :
    cs.drop (cs.takeWhile p).length = cs.dropWhile p :=
  calc cs.drop (cs.takeWhile p).length
      = (cs.takeWhile p ++ cs.dropWhile p).drop (cs.takeWhile p).length := by
        rw [List.takeWhile_append_dropWhile]
    _ = cs.dropWhile p := List.drop_left

/-- Members of a class are cut off in front of what does not start with one. -/
theorem cut_append {α : Type} {p : α → Bool} {front rest : List α}
    (hfront : ∀ c ∈ front, p c = true) (hrest : ∀ c ∈ rest.head?, p c = false) :
    (front ++ rest).takeWhile p = front ∧ (front ++ rest).dropWhile p = rest := by
  have hstop : rest.takeWhile p = [] ∧ rest.dropWhile p = rest := by
    cases rest with
    | nil => exact ⟨rfl, rfl⟩
    | cons c rest =>
      have hc := Bool.eq_false_iff.1 (hrest c rfl)
      exact ⟨List.takeWhile_cons_of_neg hc, List.dropWhile_cons_of_neg hc⟩
  rw [List.takeWhile_append_of_pos hfront, List.dropWhile_append_of_pos hfront, hstop.1, hstop.2,
    List.append_nil]
  exact ⟨rfl, rfl⟩

/-- What stands in front of the first character of a kind. -/
theorem takeWhile_ne {c : Char} {front : List Char} (h : c ∉ front) (rest : List Char) :
    (front ++ c :: rest).takeWhile (· != c) = front := by
  rw [List.takeWhile_append_of_pos fun d hd => ?_, List.takeWhile_cons_of_neg (by simp),
    List.append_nil]
  exact bne_iff_ne.2 fun hsame => h (hsame ▸ hd)

/-- Trimming twice is trimming once. -/
theorem trim_trim (s : String) : trim (trim s) = trim s := by
  rw [trim, toList_trim, trimChars, trimChars, trimWith_trimWith]
  rfl

/-- No character gets lost but blanks. -/
theorem mem_toList_trim {s : String} {c : Char} (h : c ∈ s.toList) (hc : isBlank c = false) :
    c ∈ (trim s).toList := by
  rw [toList_trim]
  exact mem_trimWith h hc

/-- What is not blank is not trimmed to nothing. -/
theorem trim_ne_empty_iff {s : String} : trim s ≠ "" ↔ isBlankText s = false := by
  rw [Ne, ← String.toList_inj, toList_trim, String.toList_empty, trimChars_eq_nil_iff, isBlankText,
    Bool.not_eq_true]

/-! ### Letters in either case -/

theorem toNat_lowerChar (c : Char) :
    (lowerChar c).toNat = if 65 ≤ c.toNat ∧ c.toNat ≤ 90 then c.toNat + 32 else c.toNat := by
  rw [lowerChar]
  split
  · next h =>
    have hvalid : (c.toNat + 32).isValidChar := .inl (by omega)
    rw [Char.ofNat, dif_pos hvalid]
    rfl
  · rfl

/-- A letter is no blank in either case. -/
theorem isBlank_lowerChar (c : Char) : isBlank (lowerChar c) = isBlank c := by
  rw [isBlank, isBlank, toNat_lowerChar]
  split
  · next h =>
    rw [Bool.eq_iff_iff]
    simp only [Bool.or_eq_true, Bool.and_eq_true, decide_eq_true_eq, beq_iff_eq]
    omega
  · rfl

theorem toList_lowerAscii (s : String) : (lowerAscii s).toList = s.toList.map lowerChar := by
  rw [lowerAscii, String.toList_ofList]

theorem lowerAscii_trim (s : String) : lowerAscii (trim s) = trim (lowerAscii s) := by
  rw [← String.toList_inj, toList_lowerAscii, toList_trim, toList_trim, toList_lowerAscii,
    trimChars, trimChars, trimWith_map]
  congr 2
  exact funext fun c => (isBlank_lowerChar c).symm

/-- Whether a text is trimmed does not depend on its case. -/
theorem trim_eq_self_of_eqIgnoringCase {s t : String} (h : eqIgnoringCase s t = true)
    (hs : trim s = s) : trim t = t := by
  rw [eqIgnoringCase_iff] at h
  -- Of a text in lower case nothing is trimmed, so nothing is trimmed of the text either.
  have hlower : lowerAscii (trim t) = lowerAscii t :=
    calc lowerAscii (trim t) = trim (lowerAscii t) := lowerAscii_trim t
      _ = trim (lowerAscii s) := by rw [h]
      _ = lowerAscii (trim s) := (lowerAscii_trim s).symm
      _ = lowerAscii t := by rw [hs, h]
  have hlength := congrArg (fun u : String => u.toList.length) hlower
  simp only [toList_lowerAscii, List.length_map, toList_trim] at hlength
  rw [← String.toList_inj, toList_trim]
  exact trimWith_sublist.eq_of_length hlength

/-- A character that comes before the letters is the form of no other. -/
theorem lowerChar_eq_iff {c d : Char} (hc : c.toNat < 65) : lowerChar d = c ↔ d = c := by
  rw [← Char.toNat_inj, ← Char.toNat_inj, toNat_lowerChar]
  split
  · omega
  · rfl

/-- Such a character stands in both of two texts that are equal up to the case of ASCII letters. -/
theorem mem_toList_of_eqIgnoringCase {s t : String} {c : Char} (h : eqIgnoringCase s t = true)
    (hc : c.toNat < 65) (hs : c ∈ s.toList) : c ∈ t.toList := by
  rw [eqIgnoringCase_iff] at h
  have hmem : c ∈ (lowerAscii s).toList := by
    rw [toList_lowerAscii]
    exact List.mem_map.2 ⟨c, hs, (lowerChar_eq_iff hc).2 rfl⟩
  rw [h, toList_lowerAscii] at hmem
  obtain ⟨d, hd, hlower⟩ := List.mem_map.1 hmem
  exact (lowerChar_eq_iff hc).1 hlower ▸ hd

end AccountService.Text
