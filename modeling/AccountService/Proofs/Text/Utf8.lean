import AccountService.Text.Utf8

/-!
# Octets of characters

The UTF-8 form of a text is the concatenation of the forms of its characters: one octet below
128 for an ASCII character, and octets from 128 up for every other. Whoever looks for ASCII
characters in a text can therefore look for their octets.

## Main definitions

* `Octets.ofChars` — the UTF-8 form of a list of characters

## Main statements

* `Octets.ofText_eq_ofChars` — texts and lists of characters have the same form
* `Octets.utf8EncodeChar_ascii`, `Octets.le_of_mem_utf8EncodeChar` — the octets of a character
-/

namespace AccountService.Octets

/-- The UTF-8 form of a list of characters. -/
def ofChars (cs : List Char) : Octets := cs.flatMap String.utf8EncodeChar

@[simp] theorem ofChars_nil : ofChars [] = [] := rfl

theorem ofChars_cons (c : Char) (cs : List Char) :
    ofChars (c :: cs) = String.utf8EncodeChar c ++ ofChars cs :=
  List.flatMap_cons

@[simp] theorem ofChars_append (cs ds : List Char) :
    ofChars (cs ++ ds) = ofChars cs ++ ofChars ds :=
  List.flatMap_append

theorem ofText_eq_ofChars (s : String) : ofText s = ofChars s.toList := by
  rw [ofChars, ← ofText_ofList, String.ofList_toList]

@[simp] theorem ofText_ofList_eq (cs : List Char) : ofText (String.ofList cs) = ofChars cs :=
  ofText_ofList cs

/-- An ASCII character is one octet. -/
theorem utf8EncodeChar_ascii {c : Char} (h : c.toNat < 128) :
    String.utf8EncodeChar c = [UInt8.ofNat c.toNat] := by
  have hle : c.val.toNat ≤ 0x7f := Nat.le_of_lt_succ h
  simp only [String.utf8EncodeChar, hle, if_true]
  rfl

theorem ofChars_cons_ascii {c : Char} (h : c.toNat < 128) (cs : List Char) :
    ofChars (c :: cs) = UInt8.ofNat c.toNat :: ofChars cs := by
  rw [ofChars_cons, utf8EncodeChar_ascii h]
  rfl

/-- ASCII characters are as many octets. -/
theorem ofChars_ascii {cs : List Char} (h : ∀ c ∈ cs, c.toNat < 128) :
    ofChars cs = cs.map fun c => UInt8.ofNat c.toNat := by
  induction cs with
  | nil => rfl
  | cons c cs ih =>
    rw [ofChars_cons_ascii (h c (by simp)), ih fun x hx => h x (by simp [hx])]
    rfl

/-- No octet of another character is that of an ASCII character. -/
theorem le_of_mem_utf8EncodeChar {c : Char} {b : UInt8} (h : 128 ≤ c.toNat)
    (hb : b ∈ String.utf8EncodeChar c) : 128 ≤ b.toNat := by
  have hle : ¬ c.val.toNat ≤ 0x7f := Nat.not_le_of_lt h
  simp only [String.utf8EncodeChar, hle, if_false] at hb
  -- Two, three or four octets, and each has its highest bit set.
  split at hb
  · simp only [List.mem_cons, List.not_mem_nil, or_false] at hb
    rcases hb with rfl | rfl <;> rw [UInt8.toNat_ofNat'] <;> omega
  split at hb
  · simp only [List.mem_cons, List.not_mem_nil, or_false] at hb
    rcases hb with rfl | rfl | rfl <;> rw [UInt8.toNat_ofNat'] <;> omega
  · simp only [List.mem_cons, List.not_mem_nil, or_false] at hb
    rcases hb with rfl | rfl | rfl | rfl <;> rw [UInt8.toNat_ofNat'] <;> omega

end AccountService.Octets
