import AccountService.Crypto.Der
import AccountService.Text.Base64

/-!
# Key files

A key file holds one structure in base 64 between a line that begins and a line that ends
it. All lines but the last have 64 characters; other text may stand on lines before the
first, and nothing but the end of the line after the last.

## Main definitions

* `Pem.Document` — a labelled structure
* `Pem.parse?` — the document of a key file
* `Pem.keyPair?` — the key pair of a key file
-/

namespace AccountService.Pem

/-- A labelled structure. -/
structure Document where
  /-- What the structure is. -/
  label : List Char
  /-- The structure itself. -/
  contents : Octets

/-- What a text begins with, taken off. -/
def strip? (start : List Char) (cs : List Char) : Option (List Char) :=
  if start.isPrefixOf cs then some (cs.drop start.length) else none

/-- What a text ends with, taken off. -/
def stripEnd? (finish : List Char) (cs : List Char) : Option (List Char) :=
  (strip? finish.reverse cs.reverse).map List.reverse

/-- The start of the first line of a structure. -/
def beginMark : List Char := "-----BEGIN ".toList

/-- The start of the last line of a structure. -/
def endMark : List Char := "-----END ".toList

/-- The end of either line. -/
def dashes : List Char := "-----".toList

/-- Skips the lines before a structure. -/
def skipPreamble : List Char → Option (List Char)
  | [] => none
  | c :: cs =>
    if c.toNat = 0 then none
    else if c = '\n' && beginMark.isPrefixOf cs then some cs
    else skipPreamble cs

/-- A text from its structure on. -/
def fromBegin? (cs : List Char) : Option (List Char) :=
  if beginMark.isPrefixOf cs then some cs else skipPreamble cs

/-- The end of a line at the front of a text, taken off. -/
def stripLineEnd? : List Char → Option (List Char)
  | '\r' :: '\n' :: cs => some cs
  | '\r' :: cs => some cs
  | '\n' :: cs => some cs
  | _ => none

/-- The end of a line at the end of a text, taken off. -/
def stripFinalLineEnd? (cs : List Char) : Option (List Char) :=
  match cs.reverse with
  | '\n' :: '\r' :: rest => some rest.reverse
  | '\n' :: rest => some rest.reverse
  | '\r' :: rest => some rest.reverse
  | _ => none

/-- Whether a label consists of printable characters with single blanks between them. -/
def isLabel : List Char → Bool
  | [] => true
  | ' ' :: _ => false
  | cs =>
    (cs.all fun c => c == ' ' || (0x21 ≤ c.toNat && c.toNat ≤ 0x7E)) &&
      !((cs.zip cs.tail).any fun (c, d) => c == ' ' && d == ' ')

/-- The characters on the lines of a structure, at most `fuel` lines. -/
def joinLines : Nat → List Char → Option (List Char)
  | 0, _ => none
  | fuel + 1, cs =>
    let rest := cs.drop 64
    if rest.isEmpty then some cs
    else
      match stripLineEnd? rest with
      | some more => (joinLines fuel more).map (cs.take 64 ++ ·)
      | none => none

/-- The document of a key file. -/
def parse? (file : List Char) : Option Document := do
  let cs ← fromBegin? file
  let cs ← strip? beginMark cs
  let label := cs.takeWhile (· != '-')
  if !isLabel label then none
  let cs ← strip? dashes (cs.drop label.length)
  let cs ← stripLineEnd? cs
  let cs := (stripFinalLineEnd? cs).getD cs
  -- The end mark carries the same label, and nothing but a line end follows it.
  let cs ← stripEnd? (endMark ++ label ++ dashes) cs
  let cs ← stripFinalLineEnd? cs
  let digits ← joinLines (cs.length + 1) cs
  let contents ← Base64.decode? Base64.standard digits
  return ⟨label, contents⟩

/-- The key pair of a key file, in either structure; the label says which. -/
def keyPair? (file : String) : Option Rsa.KeyPair := do
  let document ← parse? file.toList
  if document.label = "PRIVATE KEY".toList then Der.wrappedKey? document.contents
  else if document.label = "RSA PRIVATE KEY".toList then Der.bareKey? document.contents
  else none

end AccountService.Pem
