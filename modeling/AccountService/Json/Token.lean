import AccountService.Json.Number

/-!
# Tokens of a JSON document

A document is first cut into tokens. A string is kept as the octets between its quotes;
only the form of its escapes is checked here, because the contents of a member that nobody
asks for are never looked at.

## Main definitions

* `Json.Token` — brackets, separators and scalars
* `Json.Token.scan` — the tokens of a document
-/

namespace AccountService.Json

/-- A token of a document. -/
inductive Token where
  | beginList
  | endList
  | beginRecord
  | endRecord
  | colon
  | comma
  | null
  | bool (b : Bool)
  | number (x : Number)
  /-- A string, as the octets between its quotes. -/
  | text (raw : Octets)
  deriving DecidableEq, Repr

namespace Token

/-- The four octets that may stand between tokens. -/
def isSpace (b : UInt8) : Bool := b == 0x20 || b == 0x09 || b == 0x0A || b == 0x0D

/-- The token that a single octet makes. -/
def punctuation? (b : UInt8) : Option Token :=
  if b = 0x5B then some beginList
  else if b = 0x5D then some endList
  else if b = 0x7B then some beginRecord
  else if b = 0x7D then some endRecord
  else if b = 0x3A then some colon
  else if b = 0x2C then some comma
  else none

/-- The octets that a number is made of. -/
def isNumberOctet (b : UInt8) : Bool :=
  Number.isDigit b || b == 0x2D || b == 0x2B || b == 0x2E || b == 0x65 || b == 0x45

/-- A lower-case ASCII letter. -/
def isLetter (b : UInt8) : Bool := decide (0x61 ≤ b.toNat) && decide (b.toNat ≤ 0x7A)

/-- The token that a word names. -/
def ofWord? (bs : Octets) : Option Token :=
  if bs = [0x6E, 0x75, 0x6C, 0x6C] then some null
  else if bs = [0x74, 0x72, 0x75, 0x65] then some (bool true)
  else if bs = [0x66, 0x61, 0x6C, 0x73, 0x65] then some (bool false)
  else none

/-- The octets that may follow a backslash on their own. -/
def isShortEscape (b : UInt8) : Bool :=
  b == 0x22 || b == 0x5C || b == 0x2F || b == 0x62 || b == 0x66 || b == 0x6E || b == 0x72 ||
    b == 0x74

/-- Whether an octet is a hexadecimal digit. -/
def isHex (b : UInt8) : Bool :=
  let n := b.toNat
  (decide (48 ≤ n) && decide (n ≤ 57)) || (decide (97 ≤ n) && decide (n ≤ 102)) ||
    (decide (65 ≤ n) && decide (n ≤ 70))

/-- Where the reading of a string stands. -/
inductive Reading where
  /-- Between the parts of the string. -/
  | plain
  /-- After a backslash. -/
  | escape
  /-- So many digits of a `\u` escape are still to come. -/
  | digits (n : Nat)

/-- Takes a string up to its closing quote; `taken` holds what has been read, last octet
first. Controls must be escaped, and an escape must have one of the forms of JSON. -/
def takeText : Reading → Octets → Octets → Option (Octets × Octets)
  | _, _, [] => none
  | .plain, taken, b :: rest =>
    if b = 0x22 then some (taken.reverse, rest)
    else if b = 0x5C then takeText .escape (b :: taken) rest
    else if b < 0x20 then none
    else takeText .plain (b :: taken) rest
  | .escape, taken, b :: rest =>
    if isShortEscape b then takeText .plain (b :: taken) rest
    else if b = 0x75 then takeText (.digits 3) (b :: taken) rest
    else none
  | .digits n, taken, b :: rest =>
    if isHex b then
      match n with
      | 0 => takeText .plain (b :: taken) rest
      | n + 1 => takeText (.digits n) (b :: taken) rest
    else none

theorem length_of_takeText {r : Reading} {taken bs raw rest : Octets}
    (h : takeText r taken bs = some (raw, rest)) : rest.length < bs.length := by
  fun_induction takeText r taken bs <;> simp_all <;> omega

theorem length_dropWhile_le {α : Type} (p : α → Bool) (xs : List α) :
    (xs.dropWhile p).length ≤ xs.length := by
  induction xs with
  | nil => simp
  | cons x xs ih =>
    rw [List.dropWhile_cons]
    split
    · simp only [List.length_cons]; omega
    · exact Nat.le_refl _

/-- Continues a scan; `done` holds the tokens found so far, last token first. -/
def scanFrom (done : List Token) : Octets → Option (List Token)
  | [] => some done.reverse
  | b :: rest =>
    if isSpace b then scanFrom done rest
    else
      match punctuation? b with
      | some t => scanFrom (t :: done) rest
      | none =>
        if b = 0x22 then
          match h : takeText .plain [] rest with
          | none => none
          | some (raw, rest') =>
            have : rest'.length < rest.length := length_of_takeText h
            scanFrom (text raw :: done) rest'
        else if isNumberOctet b then
          have := length_dropWhile_le isNumberOctet rest
          match Number.ofLexeme? (b :: rest.takeWhile isNumberOctet) with
          | none => none
          | some x => scanFrom (number x :: done) (rest.dropWhile isNumberOctet)
        else
          have := length_dropWhile_le isLetter rest
          match ofWord? (b :: rest.takeWhile isLetter) with
          | none => none
          | some t => scanFrom (t :: done) (rest.dropWhile isLetter)
termination_by bs => bs.length
decreasing_by all_goals simp_all <;> omega

/-- The tokens of a document. -/
def scan (bs : Octets) : Option (List Token) := scanFrom [] bs

end Token

end AccountService.Json
