/-!
# ASCII letter case

Header names and email addresses are compared without regard to the case of ASCII letters.
No other character has a second form.

## Main definitions

* `Text.lowerAscii` — a text with its ASCII letters in lower case
* `Text.eqIgnoringCase` — equality up to the case of ASCII letters
-/

namespace AccountService.Text

/-- An ASCII capital in lower case; any other character as it is. -/
def lowerChar (c : Char) : Char :=
  if 65 ≤ c.toNat ∧ c.toNat ≤ 90 then Char.ofNat (c.toNat + 32) else c

/-- A text with its ASCII letters in lower case. -/
def lowerAscii (s : String) : String := String.ofList (s.toList.map lowerChar)

/-- Equality up to the case of ASCII letters. -/
def eqIgnoringCase (s t : String) : Bool := lowerAscii s == lowerAscii t

@[simp] theorem eqIgnoringCase_iff (s t : String) :
    eqIgnoringCase s t = true ↔ lowerAscii s = lowerAscii t := by
  simp [eqIgnoringCase]

theorem eqIgnoringCase_comm (s t : String) : eqIgnoringCase s t = eqIgnoringCase t s := by
  rw [Bool.eq_iff_iff, eqIgnoringCase_iff, eqIgnoringCase_iff]
  exact eq_comm

end AccountService.Text
