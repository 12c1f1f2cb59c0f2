import AccountService.Text.Blank
import AccountService.Text.Hex

/-!
# Quoted texts

A text named inside a message stands between quotes. Quotes and backslashes are escaped, and
so is what would not be seen: controls, blanks other than the space, invisible format
characters and marks that combine with what stands before them.

## Main definitions

* `Text.quoted` — a text between quotes
-/

namespace AccountService.Text

/-- The characters, besides blanks, that would not be seen in a message: controls, format
characters, private ones, and combining marks. -/
def unseen : List (Nat × Nat) :=
  [(0x00, 0x1F), (0x7F, 0x9F), (0xAD, 0xAD), (0x300, 0x36F), (0x483, 0x489), (0x591, 0x5BD),
    (0x600, 0x605), (0x610, 0x61A), (0x61C, 0x61C), (0x64B, 0x65F), (0x6DD, 0x6DD),
    (0x70F, 0x70F), (0x180E, 0x180E), (0x200B, 0x200F), (0x202A, 0x202E), (0x2060, 0x206F),
    (0x20D0, 0x20F0), (0xE000, 0xF8FF), (0xFE00, 0xFE0F), (0xFE20, 0xFE2F), (0xFEFF, 0xFEFF),
    (0xFFF0, 0xFFFB), (0xFFFE, 0xFFFF), (0xE0000, 0x10FFFF)]

/-- Whether a character is escaped by its number. -/
def isUnseen (c : Char) : Bool :=
  (c != ' ' && isBlank c) || unseen.any fun (lo, hi) => lo ≤ c.toNat && c.toNat ≤ hi

/-- A character inside quotes. -/
def quotedChar (c : Char) : List Char :=
  if c = '"' then ['\\', '"']
  else if c = '\\' then ['\\', '\\']
  else if c = '\n' then ['\\', 'n']
  else if c = '\r' then ['\\', 'r']
  else if c = '\t' then ['\\', 't']
  else if c.toNat = 0 then ['\\', '0']
  else if isUnseen c then '\\' :: 'u' :: '\x7b' :: (Hex.shortest c.toNat ++ ['\x7d'])
  else [c]

/-- A text between quotes. -/
def quoted (s : String) : String :=
  String.ofList ('"' :: (s.toList.flatMap quotedChar ++ ['"']))

end AccountService.Text
