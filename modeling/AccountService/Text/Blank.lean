/-!
# Blank characters

A character is blank when Unicode gives it the property `White_Space`. Configuration
values, names, emails and claims are judged and trimmed by this one class.

## Main definitions

* `Text.isBlank` — membership in the class
* `Text.trimChars`, `Text.trim` — removal of blanks at both ends
* `Text.isBlankText` — a text with nothing but blanks in it

## Main statements

* `Text.trimChars_eq_nil_iff` — trimming leaves nothing exactly of a blank text
-/

namespace AccountService.Text

/-- The twenty-five characters with the property `White_Space`. -/
def isBlank (c : Char) : Bool :=
  let n := c.toNat
  (0x09 ≤ n && n ≤ 0x0D) || n == 0x20 || n == 0x85 || n == 0xA0 || n == 0x1680 ||
    (0x2000 ≤ n && n ≤ 0x200A) || n == 0x2028 || n == 0x2029 || n == 0x202F ||
    n == 0x205F || n == 0x3000

/-- A text without its leading and trailing characters of a class. -/
def trimWith {α : Type} (p : α → Bool) (cs : List α) : List α :=
  ((cs.dropWhile p).reverse.dropWhile p).reverse

/-- A text without its leading and trailing blanks. -/
def trimChars (cs : List Char) : List Char := trimWith isBlank cs

/-- A text without its leading and trailing blanks. -/
def trim (s : String) : String := String.ofList (trimChars s.toList)

/-- A text with nothing but blanks in it; the empty text is one. -/
def isBlankText (s : String) : Bool := s.toList.all isBlank

theorem dropWhile_eq_nil_iff_all {α : Type} (p : α → Bool) (cs : List α) :
    cs.dropWhile p = [] ↔ cs.all p = true := by
  induction cs with
  | nil => simp
  | cons c cs ih =>
    rw [List.dropWhile_cons]
    split <;> simp_all

theorem trimWith_eq_nil_iff {α : Type} (p : α → Bool) (cs : List α) :
    trimWith p cs = [] ↔ cs.all p = true := by
  rw [trimWith, List.reverse_eq_nil_iff, dropWhile_eq_nil_iff_all, List.all_reverse]
  constructor
  · intro h
    induction cs with
    | nil => rfl
    | cons c cs ih =>
      rw [List.dropWhile_cons] at h
      split at h
      · next hc => simp [hc, ih h]
      · exact h
  · intro h
    rw [(dropWhile_eq_nil_iff_all p cs).2 h]
    rfl

theorem trimChars_eq_nil_iff (cs : List Char) : trimChars cs = [] ↔ cs.all isBlank = true :=
  trimWith_eq_nil_iff isBlank cs

@[simp] theorem toList_trim (s : String) : (trim s).toList = trimChars s.toList := by
  simp [trim]

end AccountService.Text
