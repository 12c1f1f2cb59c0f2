/-!
# Octets and their texts

A message body, a header value and a signing input are lists of octets; a text is
what the octets of well-formed UTF-8 spell.

## Main definitions

* `Octets` — a list of octets
* `Octets.ofText`, `Octets.toText?` — the UTF-8 form of a text and its reading

## Main statements

* `Octets.toText?_ofText` — the UTF-8 form of a text reads back as the text
* `Octets.toText?_eq_some_iff` — nothing else reads as it
-/

namespace AccountService

/-- A list of octets. -/
abbrev Octets := List UInt8

namespace Octets

/-- The UTF-8 form of a text. -/
def ofText (s : String) : Octets := s.toByteArray.data.toList

/-- The text that octets spell in UTF-8, if they spell one. -/
def toText? (bs : Octets) : Option String := String.fromUTF8? bs.toByteArray

theorem toByteArray_ofText (s : String) : (ofText s).toByteArray = s.toByteArray := by
  apply ByteArray.ext
  simp [ofText]

@[simp] theorem toText?_ofText (s : String) : toText? (ofText s) = some s := by
  simp only [toText?, String.fromUTF8?, toByteArray_ofText]
  rw [dif_pos s.isValidUTF8]
  rfl

theorem toText?_eq_some_iff {bs : Octets} {s : String} : toText? bs = some s ↔ bs = ofText s := by
  constructor
  · intro h
    simp only [toText?, String.fromUTF8?] at h
    split at h
    · next hv =>
      cases Option.some.inj h
      simp [ofText, String.fromUTF8]
    · cases h
  · rintro rfl
    exact toText?_ofText s

theorem ofText_injective {s t : String} (h : ofText s = ofText t) : s = t :=
  Option.some.inj (by rw [← toText?_ofText s, h, toText?_ofText])

@[simp] theorem ofText_append (s t : String) : ofText (s ++ t) = ofText s ++ ofText t := by
  simp [ofText]

theorem ofText_ofList (cs : List Char) :
    ofText (String.ofList cs) = cs.flatMap String.utf8EncodeChar := by
  simp [ofText, String.ofList, List.utf8Encode]

end Octets

end AccountService
