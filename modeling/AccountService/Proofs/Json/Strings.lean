import AccountService.Json.Basic
import AccountService.Json.Reading
import AccountService.Proofs.Text.Hex
import AccountService.Proofs.Text.Utf8

/-!
# Strings in JSON documents

A string is written with three kinds of characters: those with a short escape, the other
controls, which are written as `\u` and four digits, and all others, which stand for themselves.
A scan takes the written string up to its closing quote, and its octets denote the text that was
written, whatever that text is.

## Main definitions

* `Json.rawOf` — the octets between the quotes of a written text

## Main statements

* `Json.escape_cases` — the three kinds of characters
* `Json.takeText_rawOf` — a scan takes a written string up to its closing quote
* `Json.textOfRaw?_rawOf` — a written string denotes the text
-/

namespace AccountService

namespace Json

open Octets (ofChars)

/-- How a character is written: with a short escape, by its number, or as itself. -/
theorem escape_cases (c : Char) :
    (∃ d, escape c = ['\\', d] ∧ d.toNat < 128 ∧ d ≠ 'u' ∧ unescapeShort d = some c ∧
      Token.isShortEscape (UInt8.ofNat d.toNat) = true) ∨
    (escape c = '\\' :: 'u' :: Hex.fixed 4 c.toNat ∧ c.toNat < 0x20) ∨
    (escape c = [c] ∧ c ≠ '"' ∧ c ≠ '\\' ∧ 0x20 ≤ c.toNat) := by
  -- In the order of `escape`: the short escapes, the other controls, and everything else.
  by_cases hquote : c = '"'
  · exact .inl ⟨'"', by simp [escape, hquote], by decide, by decide, by simp [hquote]; rfl, rfl⟩
  by_cases hback : c = '\\'
  · exact .inl ⟨'\\', by simp [escape, hback], by decide, by decide, by simp [hback]; rfl, rfl⟩
  by_cases hb : c = '\x08'
  · exact .inl ⟨'b', by simp [escape, hb], by decide, by decide, by simp [hb]; rfl, rfl⟩
  by_cases hf : c = '\x0c'
  · exact .inl ⟨'f', by simp [escape, hf], by decide, by decide, by simp [hf]; rfl, rfl⟩
  by_cases hn : c = '\n'
  · exact .inl ⟨'n', by simp [escape, hn], by decide, by decide, by simp [hn]; rfl, rfl⟩
  by_cases hr : c = '\r'
  · exact .inl ⟨'r', by simp [escape, hr], by decide, by decide, by simp [hr]; rfl, rfl⟩
  by_cases ht : c = '\t'
  · exact .inl ⟨'t', by simp [escape, ht], by decide, by decide, by simp [ht]; rfl, rfl⟩
  by_cases hcontrol : c.toNat < 0x20
  · exact .inr (.inl ⟨by simp [escape, hquote, hback, hb, hf, hn, hr, ht, hcontrol], hcontrol⟩)
  · exact .inr (.inr ⟨by simp [escape, hquote, hback, hb, hf, hn, hr, ht, hcontrol], hquote, hback,
      Nat.le_of_not_lt hcontrol⟩)

/-! ### Scanning -/

namespace Token

theorem takeText_plain_cons {b : UInt8} (taken rest : Octets) (hquote : b ≠ 0x22)
    (hback : b ≠ 0x5C) (hcontrol : ¬ b < 0x20) :
    takeText .plain taken (b :: rest) = takeText .plain (b :: taken) rest := by
  rw [takeText, if_neg hquote, if_neg hback, if_neg hcontrol]

/-- Octets without meaning for the scan are taken as they are. -/
theorem takeText_plain_append {bs : Octets} (taken rest : Octets)
    (h : ∀ b ∈ bs, b ≠ 0x22 ∧ b ≠ 0x5C ∧ ¬ b < 0x20) :
    takeText .plain taken (bs ++ rest) = takeText .plain (bs.reverse ++ taken) rest := by
  induction bs generalizing taken with
  | nil => rfl
  | cons b bs ih =>
    obtain ⟨hquote, hback, hcontrol⟩ := h b (by simp)
    rw [List.cons_append, takeText_plain_cons _ _ hquote hback hcontrol,
      ih (b :: taken) fun x hx => h x (by simp [hx]), List.reverse_cons, List.append_assoc]
    rfl

/-- The octets of a character that stands for itself mean nothing for the scan. -/
theorem plain_of_mem_utf8EncodeChar {c : Char} {b : UInt8} (hquote : c ≠ '"') (hback : c ≠ '\\')
    (hcontrol : 0x20 ≤ c.toNat) (hb : b ∈ String.utf8EncodeChar c) :
    b ≠ 0x22 ∧ b ≠ 0x5C ∧ ¬ b < 0x20 := by
  have h22 : (0x22 : UInt8).toNat = 34 := rfl
  have h5c : (0x5C : UInt8).toNat = 92 := rfl
  have h20 : (0x20 : UInt8).toNat = 32 := rfl
  rw [UInt8.lt_iff_toNat_lt, ne_eq, ne_eq, ← UInt8.toNat_inj, ← UInt8.toNat_inj, h22, h5c, h20]
  -- An ASCII character is its own octet, and every octet of another one is at least 128.
  by_cases hascii : c.toNat < 128
  · rw [Octets.utf8EncodeChar_ascii hascii, List.mem_singleton] at hb
    have hne : ∀ d : Char, c ≠ d → c.toNat ≠ d.toNat := fun d hd he => hd (Char.toNat_inj.1 he)
    have hquote' : c.toNat ≠ 34 := hne '"' hquote
    have hback' : c.toNat ≠ 92 := hne '\\' hback
    rw [hb, UInt8.toNat_ofNat']
    omega
  · have := Octets.le_of_mem_utf8EncodeChar (Nat.le_of_not_lt hascii) hb
    omega

theorem isHex_digit : ∀ n < 16, isHex (UInt8.ofNat (Hex.digit n).toNat) = true := by decide

theorem takeText_hex_cons {n : Nat} (hn : n < 16) (missing : Nat) (taken rest : Octets) :
    takeText (.digits (missing + 1)) taken (UInt8.ofNat (Hex.digit n).toNat :: rest) =
      takeText (.digits missing) (UInt8.ofNat (Hex.digit n).toNat :: taken) rest := by
  rw [takeText, if_pos (isHex_digit n hn)]

theorem takeText_hex_last {n : Nat} (hn : n < 16) (taken rest : Octets) :
    takeText (.digits 0) taken (UInt8.ofNat (Hex.digit n).toNat :: rest) =
      takeText .plain (UInt8.ofNat (Hex.digit n).toNat :: taken) rest := by
  rw [takeText, if_pos (isHex_digit n hn)]

/-- A written character is taken as a whole. -/
theorem takeText_escape (c : Char) (taken rest : Octets) :
    takeText .plain taken (ofChars (escape c) ++ rest) =
      takeText .plain ((ofChars (escape c)).reverse ++ taken) rest := by
  -- A backslash leads out of the plain state, and the short escape or the fourth digit leads back.
  -- What stands for itself never leaves it.
  rcases escape_cases c with ⟨d, he, hd, hu, -, hshort⟩ | ⟨he, -⟩ | ⟨he, hquote, hback, hcontrol⟩
  · rw [he, Octets.ofChars_cons_ascii (by decide), Octets.ofChars_cons_ascii hd,
      Octets.ofChars_nil]
    have hback : takeText .plain taken (0x5C :: UInt8.ofNat d.toNat :: rest) =
        takeText .escape (0x5C :: taken) (UInt8.ofNat d.toNat :: rest) := rfl
    refine hback.trans ?_
    rw [takeText, if_pos hshort]
    rfl
  · have hlt : ∀ k, k % 16 < 16 := fun k => Nat.mod_lt k (by decide)
    have hascii : ∀ x ∈ '\\' :: 'u' :: Hex.fixed 4 c.toNat, x.toNat < 128 := by
      intro x hx
      simp only [Hex.fixed_four, List.mem_cons, List.not_mem_nil, or_false] at hx
      rcases hx with rfl | rfl | rfl | rfl | rfl | rfl
      · decide
      · decide
      all_goals exact Hex.toNat_digit_lt _ (hlt _)
    rw [he, Octets.ofChars_ascii hascii, Hex.fixed_four]
    simp only [List.map_cons, List.map_nil, List.cons_append, List.nil_append]
    have hopen : ∀ bs : Octets, takeText .plain taken
        (UInt8.ofNat '\\'.toNat :: UInt8.ofNat 'u'.toNat :: bs) =
        takeText (.digits 3) (UInt8.ofNat 'u'.toNat :: UInt8.ofNat '\\'.toNat :: taken) bs :=
      fun _ => rfl
    rw [hopen, takeText_hex_cons (hlt _), takeText_hex_cons (hlt _), takeText_hex_cons (hlt _),
      takeText_hex_last (hlt _)]
    rfl
  · rw [he, Octets.ofChars_cons, Octets.ofChars_nil, List.append_nil]
    exact takeText_plain_append taken rest fun b hb =>
      plain_of_mem_utf8EncodeChar hquote hback hcontrol hb

end Token

/-- The octets between the quotes of a written text. -/
def rawOf (s : String) : Octets := ofChars (s.toList.flatMap escape)

theorem takeText_flatMap_escape (cs : List Char) (taken rest : Octets) :
    Token.takeText .plain taken (ofChars (cs.flatMap escape) ++ 0x22 :: rest) =
      some (taken.reverse ++ ofChars (cs.flatMap escape), rest) := by
  -- Between two characters the scan is in the plain state again, whatever it has taken so far.
  induction cs generalizing taken with
  | nil =>
    rw [List.flatMap_nil, Octets.ofChars_nil, List.nil_append, Token.takeText, if_pos rfl,
      List.append_nil]
  | cons c cs ih =>
    rw [List.flatMap_cons, Octets.ofChars_append, List.append_assoc, Token.takeText_escape, ih,
      List.reverse_append, List.reverse_reverse, List.append_assoc]

/-- A scan takes a written string up to its closing quote. -/
theorem takeText_rawOf (s : String) (rest : Octets) :
    Token.takeText .plain [] (rawOf s ++ 0x22 :: rest) = some (rawOf s, rest) :=
  takeText_flatMap_escape s.toList [] rest

/-! ### What a string denotes -/

theorem unescapeFrom_hex_cons {d : Nat} (hd : d < 16) (missing value : Nat)
    (out cs : List Char) :
    unescapeFrom (.unit (missing + 1) value) out (Hex.digit d :: cs) =
      unescapeFrom (.unit missing (16 * value + d)) out cs := by
  rw [unescapeFrom, Hex.value?_digit d hd]

/-- A written character denotes itself. -/
theorem unescapeFrom_escape (c : Char) (out cs : List Char) :
    unescapeFrom .plain out (escape c ++ cs) = unescapeFrom .plain (c :: out) cs := by
  rcases escape_cases c with ⟨d, he, -, hu, hshort, -⟩ | ⟨he, hlt⟩ | ⟨he, -, hback, -⟩
  · have hopen : unescapeFrom .plain out ('\\' :: d :: cs) = unescapeFrom .escape out (d :: cs) :=
      rfl
    rw [he]
    refine hopen.trans ?_
    rw [unescapeFrom, if_neg hu, hshort]
  · have hopen : ∀ ds, unescapeFrom .plain out ('\\' :: 'u' :: ds) =
        unescapeFrom (.unit 3 0) out ds := fun _ => rfl
    have hmod : ∀ k, k % 16 < 16 := fun k => Nat.mod_lt k (by decide)
    -- The four digits make up the number again, and a control is no surrogate.
    have hvalue : 16 * (16 * (16 * (16 * 0 + c.toNat / 4096 % 16) + c.toNat / 256 % 16) +
        c.toNat / 16 % 16) + c.toNat / 1 % 16 = c.toNat := by omega
    have hhigh : ¬ (0xD800 ≤ c.toNat ∧ c.toNat ≤ 0xDBFF) := by omega
    have hlow : ¬ (0xDC00 ≤ c.toNat ∧ c.toNat ≤ 0xDFFF) := by omega
    rw [he, Hex.fixed_four]
    simp only [List.cons_append, List.nil_append]
    rw [hopen, unescapeFrom_hex_cons (hmod _), unescapeFrom_hex_cons (hmod _),
      unescapeFrom_hex_cons (hmod _), unescapeFrom, Hex.value?_digit _ (hmod _)]
    simp only [hvalue, if_neg hhigh, if_neg hlow, Char.ofNat_toNat]
  · rw [he, List.singleton_append, unescapeFrom, if_neg hback]

theorem unescapeFrom_flatMap_escape (cs out : List Char) :
    unescapeFrom .plain out (cs.flatMap escape) = some (out.reverse ++ cs) := by
  induction cs generalizing out with
  | nil => rw [List.flatMap_nil, unescapeFrom, List.append_nil]
  | cons c cs ih =>
    rw [List.flatMap_cons, unescapeFrom_escape, ih, List.reverse_cons, List.append_assoc]
    rfl

/-- A written string denotes the text that was written. -/
theorem textOfRaw?_rawOf (s : String) : textOfRaw? (rawOf s) = some s := by
  rw [textOfRaw?, rawOf, ← Octets.ofText_ofList_eq, Octets.toText?_ofText, Option.bind_some,
    String.toList_ofList, unescapeFrom_flatMap_escape, List.reverse_nil, List.nil_append,
    Option.map_some, String.ofList_toList]

end Json

end AccountService
