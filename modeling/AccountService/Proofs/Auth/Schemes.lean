import AccountService.Auth.Credentials
import AccountService.Proofs.Text.Blank
import AccountService.Proofs.Text.Utf8

/-!
# What follows a scheme in a header

A header value is looked at as text, so every octet of it has to be a printed ASCII character or a
tab. Blanks around it do not count, nor do blanks around what follows the scheme. A scheme ends with
a blank of its own, and that one is only seen if something follows it that is no blank: trimming
would take it off otherwise.

## Main definitions

* `Auth.IsReadable` — octets that are looked at as text
* `Auth.Blanks` — spaces and tabs
* `Auth.IsScheme` — a word and a blank after it
* `Auth.Follows` — a text after a scheme in a header value

## Main statements

* `Auth.headerText?_eq_some_iff` — which octets are readable, and as what
* `Auth.afterScheme?_eq_some_iff` — what is read after a scheme is the text that follows it
* `Auth.afterScheme?_pad` — blanks around a header value do not count
-/

namespace AccountService.Auth

/-- Octets that are looked at as text: printed ASCII characters and tabs. -/
def IsReadable (value : Octets) : Prop :=
  ∀ b ∈ value, b = 0x09 ∨ 0x20 ≤ b.toNat ∧ b.toNat ≤ 0x7E

instance (value : Octets) : Decidable (IsReadable value) :=
  inferInstanceAs (Decidable (∀ b ∈ value, b = 0x09 ∨ 0x20 ≤ b.toNat ∧ b.toNat ≤ 0x7E))

/-- Spaces and tabs. -/
def Blanks (s : String) : Prop := ∀ c ∈ s.toList, c = ' ' ∨ c = '\t'

variable {value : Octets} {cs : List Char}

/-! ### Readable octets -/

/-- The characters that readable octets stand for. -/
def IsPrinted (c : Char) : Prop := c = '\t' ∨ 0x20 ≤ c.toNat ∧ c.toNat ≤ 0x7E

instance : DecidablePred IsPrinted := fun c =>
  inferInstanceAs (Decidable (c = '\t' ∨ 0x20 ≤ c.toNat ∧ c.toNat ≤ 0x7E))

theorem isPrinted_of_all (h : cs.all (fun c => decide (IsPrinted c)) = true) :
    ∀ c ∈ cs, IsPrinted c :=
  fun c hc => of_decide_eq_true (List.all_eq_true.1 h c hc)

theorem IsPrinted.lt {c : Char} (h : IsPrinted c) : c.toNat < 128 := by
  rcases h with rfl | ⟨-, hhigh⟩
  · decide
  · omega

/-- Only spaces and tabs are blank among them. -/
theorem IsPrinted.isBlank_iff {c : Char} (h : IsPrinted c) :
    Text.isBlank c = true ↔ c = ' ' ∨ c = '\t' := by
  constructor
  · intro hblank
    simp only [Text.isBlank, Bool.or_eq_true, Bool.and_eq_true, decide_eq_true_eq,
      beq_iff_eq] at hblank
    rcases h with rfl | ⟨hlow, hhigh⟩
    · exact .inr rfl
    · have hspace : c.toNat = ' '.toNat := by
        have hvalue : ' '.toNat = 0x20 := rfl
        omega
      exact .inl (Char.toNat_inj.1 hspace)
  · rintro (rfl | rfl) <;> decide

/-- The octet of a printed character is that of a readable octet. -/
theorem IsPrinted.octet {c : Char} (h : IsPrinted c) :
    UInt8.ofNat c.toNat = 0x09 ∨
      0x20 ≤ (UInt8.ofNat c.toNat).toNat ∧ (UInt8.ofNat c.toNat).toNat ≤ 0x7E := by
  rcases h with rfl | ⟨hlow, hhigh⟩
  · exact .inl rfl
  · rw [UInt8.toNat_ofNat', Nat.mod_eq_of_lt (by omega)]
    exact .inr ⟨hlow, hhigh⟩

/-- What a readable octet stands for has its number. -/
theorem toNat_ofNat_toNat {b : UInt8} (h : b.toNat < 128) :
    (Char.ofNat b.toNat).toNat = b.toNat := by
  have hvalid : b.toNat.isValidChar := .inl (by omega)
  rw [Char.ofNat, dif_pos hvalid]
  rfl

theorem isReadable_append {front : Octets} :
    IsReadable (front ++ value) ↔ IsReadable front ∧ IsReadable value :=
  List.forall_mem_append

/-- Readable octets are those of printed characters. -/
theorem isReadable_ofChars_iff : IsReadable (Octets.ofChars cs) ↔ ∀ c ∈ cs, IsPrinted c := by
  constructor
  · intro h c hc
    have hreadable : ∀ b ∈ String.utf8EncodeChar c, b = 0x09 ∨ 0x20 ≤ b.toNat ∧ b.toNat ≤ 0x7E :=
      fun b hb => h b (List.mem_flatMap.2 ⟨c, hc, hb⟩)
    rcases Nat.lt_or_ge c.toNat 128 with hlt | hge
    · have hoctet := hreadable (UInt8.ofNat c.toNat)
        (by rw [Octets.utf8EncodeChar_ascii hlt]; exact List.mem_singleton_self _)
      rw [← UInt8.toNat_inj, UInt8.toNat_ofNat', Nat.mod_eq_of_lt (by omega)] at hoctet
      rcases hoctet with htab | hrange
      · exact .inl (Char.toNat_inj.1 htab)
      · exact .inr hrange
    · -- The octets of any other character are beyond ASCII, and there is one.
      have hlength : 0 < (String.utf8EncodeChar c).length := by
        rw [String.length_utf8EncodeChar]
        exact c.utf8Size_pos
      have hmem := List.getElem_mem hlength
      have hbeyond := Octets.le_of_mem_utf8EncodeChar hge hmem
      rcases hreadable _ hmem with htab | ⟨-, hhigh⟩
      · rw [htab] at hbeyond
        exact absurd hbeyond (by decide)
      · omega
  · intro h b hb
    rw [Octets.ofChars_ascii fun c hc => (h c hc).lt] at hb
    obtain ⟨c, hc, rfl⟩ := List.mem_map.1 hb
    exact (h c hc).octet

/-- Readable octets are those of the characters that they stand for. -/
theorem ofChars_of_isReadable (h : IsReadable value) :
    Octets.ofChars (value.map fun b => Char.ofNat b.toNat) = value := by
  have hlt : ∀ b ∈ value, b.toNat < 128 := by
    intro b hb
    rcases h b hb with rfl | ⟨-, hhigh⟩
    · decide
    · omega
  have hascii : ∀ c ∈ value.map fun b => Char.ofNat b.toNat, c.toNat < 128 := by
    intro c hc
    obtain ⟨b, hb, rfl⟩ := List.mem_map.1 hc
    rw [toNat_ofNat_toNat (hlt b hb)]
    exact hlt b hb
  rw [Octets.ofChars_ascii hascii, List.map_map]
  refine (List.map_congr_left fun b hb => ?_).trans (List.map_id value)
  rw [Function.comp_apply, toNat_ofNat_toNat (hlt b hb), UInt8.ofNat_toNat, id_eq]

theorem headerText?_eq (value : Octets) :
    headerText? value =
      if IsReadable value then some (value.map fun b => Char.ofNat b.toNat) else none := by
  have hiff : (value.all fun b =>
      b == 0x09 || (decide (0x20 ≤ b.toNat) && decide (b.toNat ≤ 0x7E))) = true ↔
      IsReadable value := by
    rw [List.all_eq_true]
    refine forall₂_congr fun b _ => ?_
    simp
  simp only [headerText?, hiff]

/-- Readable octets are read as the characters whose octets they are. -/
theorem headerText?_eq_some_iff :
    headerText? value = some cs ↔ IsReadable value ∧ value = Octets.ofChars cs := by
  rw [headerText?_eq, Option.ite_none_right_eq_some, Option.some.injEq]
  refine and_congr_right fun hvalue => ?_
  constructor
  · rintro rfl
    exact (ofChars_of_isReadable hvalue).symm
  · intro h
    have hsame := (ofChars_of_isReadable hvalue).trans h
    rw [← Octets.ofText_ofList_eq, ← Octets.ofText_ofList_eq] at hsame
    exact String.ofList_injective (Octets.ofText_injective hsame)

theorem headerText?_eq_none_iff : headerText? value = none ↔ ¬ IsReadable value := by
  rw [headerText?_eq]
  simp

/-! ### What follows a scheme -/

/-- A word and a blank after it. -/
structure IsScheme (scheme : String) : Prop where
  printed : ∀ c ∈ scheme.toList, IsPrinted c
  first : ∀ c ∈ scheme.toList.head?, Text.isBlank c = false
  last : scheme.toList.getLast? = some ' '

/-- A text that is not empty stands after a scheme in a header value. The value is readable, there
may be blanks around the text and in front of the scheme, and none of them belongs to the text. -/
structure Follows (scheme : String) (value : Octets) (text : String) : Prop where
  readable : IsReadable value
  form : ∃ front gap back, Blanks front ∧ Blanks gap ∧ Blanks back ∧
    value = Octets.ofText (front ++ scheme ++ gap ++ text ++ back)
  ne_empty : text ≠ ""
  first : ∀ c ∈ text.toList.head?, c ≠ ' ' ∧ c ≠ '\t'
  last : ∀ c ∈ text.toList.getLast?, c ≠ ' ' ∧ c ≠ '\t'

theorem Blanks.isBlank {s : String} (h : Blanks s) : ∀ c ∈ s.toList, Text.isBlank c = true := by
  intro c hc
  rcases h c hc with rfl | rfl <;> decide

theorem Blanks.isPrinted {s : String} (h : Blanks s) : ∀ c ∈ s.toList, IsPrinted c := by
  intro c hc
  rcases h c hc with rfl | rfl
  · exact .inr (by decide)
  · exact .inl rfl

/-- Blanks that are printed are spaces and tabs. -/
theorem blanks_ofList (hprinted : ∀ c ∈ cs, IsPrinted c) (hblank : ∀ c ∈ cs, Text.isBlank c = true) :
    Blanks (String.ofList cs) := by
  intro c hc
  rw [String.toList_ofList] at hc
  exact (hprinted c hc).isBlank_iff.1 (hblank c hc)

theorem isBlank_eq_false {c : Char} (h : IsPrinted c) (hc : c ≠ ' ' ∧ c ≠ '\t') :
    Text.isBlank c = false := by
  rw [Bool.eq_false_iff, Ne, h.isBlank_iff, not_or]
  exact hc

theorem ne_of_isBlank_eq_false {c : Char} (h : Text.isBlank c = false) : c ≠ ' ' ∧ c ≠ '\t' := by
  constructor <;> rintro rfl <;> exact absurd h (by decide)

variable {scheme : String}

theorem IsScheme.ne_nil (h : IsScheme scheme) : scheme.toList ≠ [] := by
  intro hnil
  have hlast := h.last
  rw [hnil] at hlast
  cases hlast

theorem Follows.printed {text : String} (h : Follows scheme value text) :
    ∀ c ∈ text.toList, IsPrinted c := by
  obtain ⟨front, gap, back, -, -, -, rfl⟩ := h.form
  have hreadable := h.readable
  rw [Octets.ofText_eq_ofChars] at hreadable
  exact fun c hc => isReadable_ofChars_iff.1 hreadable c (by simp [hc])

/-- A text follows the scheme that stands right in front of it. -/
theorem follows_append (hscheme : IsScheme scheme) {text : String}
    (hprinted : ∀ c ∈ text.toList, IsPrinted c) (hne : text ≠ "")
    (hfirst : ∀ c ∈ text.toList.head?, c ≠ ' ' ∧ c ≠ '\t')
    (hlast : ∀ c ∈ text.toList.getLast?, c ≠ ' ' ∧ c ≠ '\t') :
    Follows scheme (Octets.ofText (scheme ++ text)) text := by
  have hnone : Blanks "" := fun c hc => absurd hc List.not_mem_nil
  refine ⟨?_, ⟨"", "", "", hnone, hnone, hnone, by simp⟩, hne, hfirst, hlast⟩
  rw [Octets.ofText_eq_ofChars, String.toList_append]
  exact isReadable_ofChars_iff.2 (List.forall_mem_append.2 ⟨hscheme.printed, hprinted⟩)

/-- What stands after a scheme is read. -/
theorem afterScheme?_of_follows (hscheme : IsScheme scheme) {text : String}
    (h : Follows scheme value text) : afterScheme? scheme.toList value = some text.toList := by
  have htext := h.printed
  obtain ⟨front, gap, back, hfront, hgap, hback, rfl⟩ := h.form
  have hreadable := h.readable
  rw [Octets.ofText_eq_ofChars] at hreadable ⊢
  have hread := headerText?_eq_some_iff.2 ⟨hreadable, rfl⟩
  have hne : text.toList ≠ [] := fun hnil => h.ne_empty (String.toList_inj.1 hnil)
  have hlast : ∀ c ∈ text.toList.getLast?, Text.isBlank c = false := fun c hc =>
    isBlank_eq_false (htext c (List.mem_of_getLast? hc)) (h.last c hc)
  have htrim : Text.trimChars text.toList = text.toList :=
    Text.trimWith_eq_self (fun c hc => isBlank_eq_false (htext c (List.mem_of_head? hc)) (h.first c hc))
      hlast
  -- What is left of the value starts with the scheme and ends with the text.
  have hvalue : Text.trimChars (front ++ scheme ++ gap ++ text ++ back).toList =
      scheme.toList ++ (gap.toList ++ text.toList) := by
    have hchars : (front ++ scheme ++ gap ++ text ++ back).toList =
        front.toList ++ (scheme.toList ++ (gap.toList ++ text.toList) ++ back.toList) := by
      simp
    rw [hchars, Text.trimChars, Text.trimWith_append_left hfront.isBlank,
      Text.trimWith_append_right hback.isBlank]
    refine Text.trimWith_eq_self (fun c hc => ?_) fun c hc => ?_
    · rw [List.head?_append_of_ne_nil _ hscheme.ne_nil] at hc
      exact hscheme.first c hc
    · rw [← List.append_assoc, List.getLast?_append_of_ne_nil _ hne] at hc
      exact hlast c hc
  have hstart : scheme.toList.isPrefixOf (scheme.toList ++ (gap.toList ++ text.toList)) = true :=
    List.isPrefixOf_iff_prefix.2 (List.prefix_append _ _)
  simp only [afterScheme?, hread, hvalue, hstart, if_true, List.drop_left]
  rw [Text.trimChars, Text.trimWith_append_left hgap.isBlank]
  exact congrArg some htrim

/-- If trimming has left the blank of a scheme, then something follows that is no blank. -/
theorem IsScheme.trimChars_ne_nil (h : IsScheme scheme) {line rest : List Char}
    (hrest : scheme.toList ++ rest = Text.trimChars line) : Text.trimChars rest ≠ [] := by
  intro hnil
  have hblank := List.all_eq_true.1 ((Text.trimChars_eq_nil_iff rest).1 hnil)
  have hlast : ∃ c ∈ (scheme.toList ++ rest).getLast?, Text.isBlank c = true := by
    rcases List.eq_nil_or_concat rest with rfl | ⟨rest, c, rfl⟩
    · exact ⟨' ', by rw [List.append_nil]; exact h.last, by decide⟩
    · exact ⟨c, by simp, hblank c (by simp)⟩
  obtain ⟨c, hc, hcblank⟩ := hlast
  rw [hrest] at hc
  rw [Text.eq_false_of_mem_getLast?_trimWith hc] at hcblank
  cases hcblank

/-- What is read after a scheme stands there. -/
theorem follows_of_afterScheme? (hscheme : IsScheme scheme)
    (h : afterScheme? scheme.toList value = some cs) : Follows scheme value (String.ofList cs) := by
  rw [afterScheme?] at h
  split at h
  · cases h
  next line hline =>
  obtain ⟨hreadable, rfl⟩ := headerText?_eq_some_iff.1 hline
  rw [Option.ite_none_right_eq_some] at h
  obtain ⟨hstart, hcs⟩ := h
  obtain ⟨rest, hrest⟩ := List.isPrefixOf_iff_prefix.1 hstart
  rw [← hrest, List.drop_left] at hcs
  obtain rfl := Option.some.inj hcs
  -- The value is cut twice: around what is left of it, and around what follows the scheme in that.
  obtain ⟨front, back, hfront, hback, hvalue⟩ := Text.exists_surrounding Text.isBlank line
  obtain ⟨gap, back', hgap, hback', htext⟩ := Text.exists_surrounding Text.isBlank rest
  have hwhole : line = front ++ (scheme.toList ++ rest) ++ back := by
    rw [hrest]
    exact hvalue
  rw [htext] at hwhole
  have hprinted : ∀ c, c ∈ front ∨ c ∈ gap ∨ c ∈ back' ++ back → IsPrinted c := by
    intro c hc
    refine isReadable_ofChars_iff.1 hreadable c ?_
    rw [hwhole]
    simp only [List.mem_append] at hc ⊢
    tauto
  refine ⟨hreadable, ⟨String.ofList front, String.ofList gap, String.ofList (back' ++ back),
    blanks_ofList (fun c hc => hprinted c (.inl hc)) hfront,
    blanks_ofList (fun c hc => hprinted c (.inr (.inl hc))) hgap,
    blanks_ofList (fun c hc => hprinted c (.inr (.inr hc)))
      (List.forall_mem_append.2 ⟨hback', hback⟩), ?_⟩, ?_, fun c hc => ?_, fun c hc => ?_⟩
  · rw [Octets.ofText_eq_ofChars, hwhole]
    simp [Text.trimChars]
  · have hne := hscheme.trimChars_ne_nil hrest
    simpa using hne
  · rw [String.toList_ofList] at hc
    exact ne_of_isBlank_eq_false (Text.eq_false_of_mem_head?_trimWith hc)
  · rw [String.toList_ofList] at hc
    exact ne_of_isBlank_eq_false (Text.eq_false_of_mem_getLast?_trimWith hc)

/-- What is read after a scheme is the text that follows it. -/
theorem afterScheme?_eq_some_iff (hscheme : IsScheme scheme) :
    afterScheme? scheme.toList value = some cs ↔ Follows scheme value (String.ofList cs) := by
  constructor
  · exact follows_of_afterScheme? hscheme
  · intro h
    rw [afterScheme?_of_follows hscheme h, String.toList_ofList]

/-- At most one text follows a scheme. -/
theorem Follows.unique (hscheme : IsScheme scheme) {s t : String} (hs : Follows scheme value s)
    (ht : Follows scheme value t) : s = t := by
  have hread := afterScheme?_of_follows hscheme hs
  rw [afterScheme?_of_follows hscheme ht] at hread
  exact (String.toList_inj.1 (Option.some.inj hread)).symm

/-- What follows a scheme follows it right away in a value of its own. -/
theorem Follows.plain (hscheme : IsScheme scheme) {text : String} (h : Follows scheme value text) :
    Follows scheme (Octets.ofText (scheme ++ text)) text :=
  follows_append hscheme h.printed h.ne_empty h.first h.last

/-- Blanks around a header value do not count. -/
theorem afterScheme?_pad {front back : String} (hfront : Blanks front) (hback : Blanks back)
    (scheme : List Char) (value : Octets) :
    afterScheme? scheme (Octets.ofText front ++ value ++ Octets.ofText back) =
      afterScheme? scheme value := by
  have hreadable {s : String} (hs : Blanks s) : IsReadable (Octets.ofText s) := by
    rw [Octets.ofText_eq_ofChars]
    exact isReadable_ofChars_iff.2 hs.isPrinted
  cases hread : headerText? value with
  | none =>
    have hpadded : headerText? (Octets.ofText front ++ value ++ Octets.ofText back) = none := by
      rw [headerText?_eq_none_iff] at hread ⊢
      exact fun h => hread (isReadable_append.1 (isReadable_append.1 h).1).2
    rw [afterScheme?, afterScheme?, hread, hpadded]
  | some line =>
    obtain ⟨hvalue, rfl⟩ := headerText?_eq_some_iff.1 hread
    have hpadded : headerText? (Octets.ofText front ++ Octets.ofChars line ++ Octets.ofText back) =
        some (front.toList ++ line ++ back.toList) := by
      refine headerText?_eq_some_iff.2 ⟨isReadable_append.2
        ⟨isReadable_append.2 ⟨hreadable hfront, hvalue⟩, hreadable hback⟩, ?_⟩
      simp [Octets.ofText_eq_ofChars]
    have htrim : Text.trimChars (front.toList ++ line ++ back.toList) = Text.trimChars line := by
      rw [Text.trimChars, Text.trimWith_append_right hback.isBlank,
        Text.trimWith_append_left hfront.isBlank, Text.trimChars]
    rw [afterScheme?, afterScheme?, hread, hpadded]
    simp only [htrim]

/-- A value has no text after each of two schemes neither of which begins the other. -/
theorem not_follows_of_follows {scheme' : String} (hscheme : IsScheme scheme)
    (hscheme' : IsScheme scheme') (hle : scheme.toList.length ≤ scheme'.toList.length)
    (hother : scheme.toList.isPrefixOf scheme'.toList = false) {s t : String}
    (hs : Follows scheme value s) : ¬ Follows scheme' value t := by
  intro ht
  have hread := afterScheme?_of_follows hscheme hs
  have hread' := afterScheme?_of_follows hscheme' ht
  rw [afterScheme?] at hread hread'
  split at hread
  · cases hread
  next line hline =>
  rw [hline] at hread'
  have hstart := List.isPrefixOf_iff_prefix.1 (Option.ite_none_right_eq_some.1 hread).1
  have hstart' := List.isPrefixOf_iff_prefix.1 (Option.ite_none_right_eq_some.1 hread').1
  rw [List.isPrefixOf_iff_prefix.2 (List.prefix_of_prefix_length_le hstart hstart' hle)] at hother
  cases hother

end AccountService.Auth
