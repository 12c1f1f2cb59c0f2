import AccountService.Http.Route
import AccountService.Proofs.Text.Hex
import AccountService.Proofs.Text.Utf8
import Mathlib.Data.List.TakeWhile

/-!
# Percent-encodings decode

A text has many percent-encodings: any of its octets may be escaped, with digits of either case, and
all but those of `/`, `?`, `#` and `%` may stand as they are. Each of them is one segment of a path,
is not cut short where the path of a target ends, and denotes the text.

## Main definitions

* `Percent.Encodes` — octets are a percent-encoding of others
* `Percent.escapeAll` — the encoding in which every octet is escaped
* `Http.IsSegment` — a text is one segment of a path

## Main statements

* `Percent.decode_of_encodes` — an encoding decodes to what it encodes
* `Percent.Encodes.notMem` — an encoding has no delimiter of paths
* `Percent.encodes_escapeAll` — every text has an encoding
* `Http.decodeValue_of_encodes`, `Http.isSegment_of_encodes` — encodings in a path
-/

namespace AccountService

namespace Percent

/-- The octets of the digits of either case for a number below sixteen. -/
def digits (n : Nat) : Octets :=
  [UInt8.ofNat (Hex.digit n).toNat, UInt8.ofNat (Hex.digit n).toUpper.toNat]

/-- The octets of `/`, `?` and `#`, which end a segment of a path. -/
def delimiters : Octets := [0x2F, 0x3F, 0x23]

/-- Octets are a percent-encoding of others. -/
inductive Encodes : Octets → Octets → Prop where
  | nil : Encodes [] []
  /-- Any octet may be escaped. -/
  | escaped {b hi lo : UInt8} {bs es : Octets} : hi ∈ digits (b.toNat / 16) →
    lo ∈ digits (b.toNat % 16) → Encodes bs es → Encodes (b :: bs) (0x25 :: hi :: lo :: es)
  /-- An octet other than those of the delimiters and of `%` may stand as it is. -/
  | raw {b : UInt8} {bs es : Octets} : b ∉ delimiters → b ≠ 0x25 → Encodes bs es →
    Encodes (b :: bs) (b :: es)

variable {b hi lo d : UInt8} {bs es : Octets}

/-- Both digits of a number are read as the number, and neither is a delimiter. -/
theorem digits_spec {n : Nat} (hn : n < 16) (hd : d ∈ digits n) :
    nibble? d = some n ∧ d ∉ delimiters := by
  have hdigits : ∀ n < 16, (digits n).all (fun d =>
      nibble? d == some n && !delimiters.contains d) = true := by decide
  have hspec := List.all_eq_true.1 (hdigits n hn) d hd
  rwa [Bool.and_eq_true, beq_iff_eq, Bool.not_eq_true', List.contains_eq_mem,
    decide_eq_false_iff_not] at hspec

/-! ### Decoding -/

/-- An escaped octet is decoded. -/
theorem decode_escaped {m n : Nat} (hhi : nibble? hi = some m) (hlo : nibble? lo = some n)
    (es : Octets) : decode (0x25 :: hi :: lo :: es) = UInt8.ofNat (16 * m + n) :: decode es := by
  rw [decode, if_pos rfl, hhi, hlo]

/-- An octet other than that of `%` is left as it is. -/
theorem decode_raw (hb : b ≠ 0x25) (es : Octets) : decode (b :: es) = b :: decode es := by
  match es with
  | [] => rfl
  | [_] => rfl
  | _ :: _ :: _ => rw [decode, if_neg hb]

/-- An encoding decodes to what it encodes. -/
theorem decode_of_encodes (h : Encodes bs es) : decode es = bs := by
  induction h with
  | nil => rfl
  | @escaped b hi lo bs es hhi hlo _ ih =>
    have hbound := b.toNat_lt
    obtain ⟨hm, -⟩ := digits_spec (by omega) hhi
    obtain ⟨hn, -⟩ := digits_spec (Nat.mod_lt _ (by decide)) hlo
    rw [decode_escaped hm hn, ih, Nat.div_add_mod, UInt8.ofNat_toNat]
  | raw _ hb _ ih => rw [decode_raw hb, ih]

-- Digits of either case, and a percent sign that is escaped itself.
example : decode (Octets.ofText "%c3%A9%2f%25") = Octets.ofText "é/%" := by decide +kernel

/-! ### Segments -/

/-- An encoding has no delimiter of paths. -/
theorem Encodes.notMem (h : Encodes bs es) (hd : d ∈ delimiters) : d ∉ es := by
  induction h with
  | nil => exact List.not_mem_nil
  | @escaped b hi lo bs es hhi hlo _ ih =>
    have hbound := b.toNat_lt
    have hpercent : (0x25 : UInt8) ∉ delimiters := by decide
    obtain ⟨-, hhi⟩ := digits_spec (by omega) hhi
    obtain ⟨-, hlo⟩ := digits_spec (Nat.mod_lt _ (by decide)) hlo
    simp only [List.mem_cons, not_or]
    refine ⟨?_, ?_, ?_, ih⟩
    · rintro rfl
      exact hpercent hd
    · rintro rfl
      exact hhi hd
    · rintro rfl
      exact hlo hd
  | raw hraw _ _ ih =>
    rw [List.mem_cons, not_or]
    refine ⟨?_, ih⟩
    rintro rfl
    exact hraw hd

theorem Encodes.ne_nil (h : Encodes bs es) (hbs : bs ≠ []) : es ≠ [] := by
  cases h with
  | nil => exact hbs
  | escaped => exact List.cons_ne_nil _ _
  | raw => exact List.cons_ne_nil _ _

/-! ### Deciding and writing encodings -/

/-- Whether octets are a percent-encoding of others. -/
def isEncoding : Octets → Octets → Bool
  | [], es => es.isEmpty
  | b :: bs, es =>
    match es with
    | [] => false
    | e :: es =>
      if e = 0x25 then
        match es with
        | hi :: lo :: es =>
          (digits (b.toNat / 16)).contains hi && (digits (b.toNat % 16)).contains lo &&
            isEncoding bs es
        | _ => false
      else e == b && !delimiters.contains b && isEncoding bs es

theorem isEncoding_iff : isEncoding bs es = true ↔ Encodes bs es := by
  constructor
  · intro h
    induction bs generalizing es with
    | nil =>
      rw [isEncoding, List.isEmpty_iff] at h
      exact h ▸ .nil
    | cons b bs ih =>
      rw [isEncoding.eq_def] at h
      split at h
      · next heq => cases heq
      · next heq =>
        cases heq
        split at h
        · cases h
        · split at h
          · next hpercent =>
            subst hpercent
            split at h
            · simp only [Bool.and_eq_true, List.contains_iff_mem] at h
              exact .escaped h.1.1 h.1.2 (ih h.2)
            · cases h
          · next hpercent =>
            simp only [Bool.and_eq_true, beq_iff_eq, Bool.not_eq_true', List.contains_eq_mem,
              decide_eq_false_iff_not] at h
            obtain ⟨⟨rfl, hraw⟩, hrest⟩ := h
            exact .raw hraw hpercent (ih hrest)
  · intro h
    induction h with
    | nil => rfl
    | escaped hhi hlo _ ih =>
      simp only [isEncoding, if_true, List.contains_iff_mem.2 hhi, List.contains_iff_mem.2 hlo, ih,
        Bool.and_true]
    | raw hraw hb _ ih =>
      rw [isEncoding.eq_def]
      simp [hb, ih, hraw]

instance (bs es : Octets) : Decidable (Encodes bs es) := decidable_of_iff _ isEncoding_iff

/-- The escape of an octet. -/
def escape (b : UInt8) : List Char := ['%', Hex.digit (b.toNat / 16), Hex.digit (b.toNat % 16)]

/-- The encoding in which every octet is escaped. -/
def escapeAll (bs : Octets) : String := String.ofList (bs.flatMap escape)

/-- Every text has an encoding. -/
theorem encodes_escapeAll (bs : Octets) : Encodes bs (Octets.ofText (escapeAll bs)) := by
  rw [escapeAll, Octets.ofText_ofList_eq]
  induction bs with
  | nil => exact .nil
  | cons b bs ih =>
    have hbound := b.toNat_lt
    have hhi := Hex.toNat_digit_lt (b.toNat / 16) (by omega)
    have hlo := Hex.toNat_digit_lt (b.toNat % 16) (Nat.mod_lt _ (by decide))
    rw [List.flatMap_cons, Octets.ofChars_append, escape, Octets.ofChars_cons_ascii (by decide),
      Octets.ofChars_cons_ascii hhi, Octets.ofChars_cons_ascii hlo]
    exact .escaped List.mem_cons_self List.mem_cons_self ih

end Percent

/-- The octet of an ASCII character of a text is among the octets of the text. -/
theorem Octets.mem_ofText_of_ascii {s : String} {c : Char} (hascii : c.toNat < 128)
    (hc : c ∈ s.toList) : UInt8.ofNat c.toNat ∈ ofText s := by
  rw [ofText_eq_ofChars, ofChars, List.mem_flatMap]
  exact ⟨c, hc, by rw [utf8EncodeChar_ascii hascii]; exact List.mem_singleton_self _⟩

namespace Http

open Percent (Encodes)

/-- A text is one segment of a path: it is not empty, and no character in it ends the segment. -/
structure IsSegment (segment : String) : Prop where
  ne_empty : segment ≠ ""
  notMem : ∀ c ∈ ['/', '?', '#'], c ∉ segment.toList

variable {text segment front : String}

theorem isSegment_iff :
    IsSegment segment ↔
      segment ≠ "" ∧ '/' ∉ segment.toList ∧ '?' ∉ segment.toList ∧ '#' ∉ segment.toList := by
  constructor
  · rintro ⟨hne, hends⟩
    exact ⟨hne, by simpa using hends⟩
  · rintro ⟨hne, hends⟩
    exact ⟨hne, by simpa using hends⟩

/-- An encoding denotes the text that it encodes. -/
theorem decodeValue_of_encodes (h : Encodes (Octets.ofText text) (Octets.ofText segment)) :
    decodeValue segment.toList = some text := by
  rw [decodeValue, String.ofList_toList, Percent.decode_of_encodes h, Octets.toText?_ofText]

/-- An encoding of a text that is not empty is one segment of a path. -/
theorem isSegment_of_encodes (h : Encodes (Octets.ofText text) (Octets.ofText segment))
    (htext : text ≠ "") : IsSegment segment where
  ne_empty := by
    rintro rfl
    exact h.ne_nil (fun hnil => htext (Octets.ofText_injective hnil)) rfl
  notMem c hc hmem := by
    have hdelimiter : c.toNat < 128 ∧ UInt8.ofNat c.toNat ∈ Percent.delimiters := by
      simp only [List.mem_cons, List.not_mem_nil, or_false] at hc
      rcases hc with rfl | rfl | rfl <;> decide
    exact h.notMem hdelimiter.2 (Octets.mem_ofText_of_ascii hdelimiter.1 hmem)

/-- A target that ends with one segment is a path, if nothing before the segment ends the path. -/
theorem pathOfTarget_append (h : IsSegment segment) (hquery : '?' ∉ front.toList)
    (hfragment : '#' ∉ front.toList) : pathOfTarget (front ++ segment) = front ++ segment := by
  have hall : (front ++ segment).toList.takeWhile (fun c => c != '?' && c != '#') =
      (front ++ segment).toList := by
    rw [List.takeWhile_eq_self_iff, String.toList_append]
    intro c hc
    rw [Bool.and_eq_true, bne_iff_ne, bne_iff_ne]
    rcases List.mem_append.1 hc with hc | hc
    · exact ⟨fun heq => hquery (heq ▸ hc), fun heq => hfragment (heq ▸ hc)⟩
    · exact ⟨fun heq => h.notMem '?' (by decide) (heq ▸ hc),
        fun heq => h.notMem '#' (by decide) (heq ▸ hc)⟩
  have hnonempty : (front ++ segment).toList.isEmpty = false := by
    rw [List.isEmpty_eq_false_iff, String.toList_append]
    exact fun hnil => h.ne_empty (String.toList_eq_nil_iff.1 (List.append_eq_nil_iff.1 hnil).2)
  simp only [pathOfTarget, hall, hnonempty, Bool.false_eq_true, if_false, String.ofList_toList]

end Http

end AccountService
