import AccountService.Text.Hex
import AccountService.Text.Numeral

/-!
# Network addresses

An address of the Internet is four octets in decimal, without superfluous zeros, or eight
groups of up to four hexadecimal digits, of which one run of zero groups may be left out and
the last two may be written as four octets. It is printed in one canonical form.

## Main definitions

* `Net.Address` — an address of either version
* `Net.Address.parse?` — the address that a text writes
* `Net.Address.text` — its canonical form
* `Net.Address.withPort` — an address and a port
-/

namespace AccountService.Net

/-- An address of either version. -/
inductive Address where
  /-- Four octets. -/
  | v4 (a b c d : BitVec 8)
  /-- Eight groups. -/
  | v6 (groups : Vector (BitVec 16) 8)
  deriving DecidableEq, Repr

namespace Address

/-! ### Reading -/

/-- A decimal octet at the front of a text, and what follows it. -/
def octet? (cs : List Char) : Option (Nat × List Char) :=
  let isDigit (c : Char) : Bool := 48 ≤ c.toNat && c.toNat ≤ 57
  let ds := cs.takeWhile isDigit
  let n := ds.foldl (fun n c => 10 * n + (c.toNat - 48)) 0
  if ds.isEmpty || 3 < ds.length || (ds.head? = some '0' && 1 < ds.length) || 255 < n then none
  else some (n, cs.drop ds.length)

/-- A given character at the front of a text, taken off. -/
def expect? (c : Char) : List Char → Option (List Char)
  | [] => none
  | d :: cs => if d = c then some cs else none

/-- Four octets at the front of a text, and what follows them. -/
def octets? (cs : List Char) : Option ((Nat × Nat × Nat × Nat) × List Char) := do
  let (a, cs) ← octet? cs
  let cs ← expect? '.' cs
  let (b, cs) ← octet? cs
  let cs ← expect? '.' cs
  let (c, cs) ← octet? cs
  let cs ← expect? '.' cs
  let (d, cs) ← octet? cs
  return ((a, b, c, d), cs)

/-- A group of hexadecimal digits at the front of a text, and what follows it. -/
def group? (cs : List Char) : Option (Nat × List Char) :=
  let ds := cs.takeWhile fun c => (Hex.value? c).isSome
  if ds.isEmpty || 4 < ds.length then none
  else (Hex.read? ds).map (·, cs.drop ds.length)

/-- Up to `limit` groups at the front of a text, each but the first after a colon. Four octets
make the last two groups. Yields the groups, what follows them, and whether octets were read. -/
def groups : Nat → Bool → List Char → List Nat × List Char × Bool
  | 0, _, cs => ([], cs, false)
  | limit + 1, first, cs =>
    match if first then some cs else expect? ':' cs with
    | none => ([], cs, false)
    | some body =>
      match if 1 ≤ limit then octets? body else none with
      | some ((a, b, c, d), rest) => ([256 * a + b, 256 * c + d], rest, true)
      | none =>
        match group? body with
        | none => ([], cs, false)
        | some (g, rest) =>
          let (gs, rest, octets) := groups limit false rest
          (g :: gs, rest, octets)

/-- The address of eight groups. -/
def ofGroups (gs : List Nat) : Address :=
  .v6 (Vector.ofFn fun i => BitVec.ofNat 16 (gs.getD i 0))

/-- The eight groups that a text writes, and what follows them. -/
def sixteen? (cs : List Char) : Option (Address × List Char) :=
  let (front, rest, octets) := groups 8 true cs
  if front.length = 8 then some (ofGroups front, rest)
  -- Octets end an address, so groups cannot have been left out after them.
  else if octets then none
  else
    match rest with
    | ':' :: ':' :: rest =>
      -- At least one group has been left out.
      let (back, rest, _) := groups (7 - front.length) true rest
      some (ofGroups
        (front ++ List.replicate (8 - front.length - back.length) 0 ++ back), rest)
    | _ => none

/-- The address that a text writes. -/
def parse? (s : String) : Option Address :=
  match octets? s.toList with
  | some ((a, b, c, d), []) =>
    some (.v4 (BitVec.ofNat 8 a) (BitVec.ofNat 8 b) (BitVec.ofNat 8 c) (BitVec.ofNat 8 d))
  | _ =>
    match sixteen? s.toList with
    | some (address, []) => some address
    | _ => none

/-! ### Printing -/

/-- Four octets in decimal. -/
def octetChars (a b c d : Nat) : List Char :=
  Numeral.ofNat a ++ '.' :: (Numeral.ofNat b ++ '.' :: (Numeral.ofNat c ++ '.' :: Numeral.ofNat d))

/-- Groups in hexadecimal, separated by colons. -/
def groupChars : List Nat → List Char
  | [] => []
  | [g] => Hex.shortest g
  | g :: h :: rest => Hex.shortest g ++ ':' :: groupChars (h :: rest)

/-- The number of zeros at the front of a list. -/
def zeros (gs : List Nat) : Nat := (gs.takeWhile (· == 0)).length

/-- Where the longest run of zero groups begins, and its length; of equal runs the first. -/
def longestRun (gs : List Nat) : Nat × Nat :=
  (List.range gs.length).foldl
    (fun best i =>
      let n := zeros (gs.drop i)
      if best.2 < n then (i, n) else best)
    (0, 0)

/-- Eight groups in canonical form: the longest run of at least two zero groups is left out, and
an address of four octets in disguise shows them. -/
def sixteenChars (gs : List Nat) : List Char :=
  if gs.take 6 = [0, 0, 0, 0, 0, 0xFFFF] then
    let g := gs.getD 6 0
    let h := gs.getD 7 0
    "::ffff:".toList ++ octetChars (g / 256) (g % 256) (h / 256) (h % 256)
  else
    let (start, length) := longestRun gs
    if 1 < length then
      groupChars (gs.take start) ++ "::".toList ++ groupChars (gs.drop (start + length))
    else groupChars gs

/-- The canonical form of an address. -/
def chars : Address → List Char
  | v4 a b c d => octetChars a.toNat b.toNat c.toNat d.toNat
  | v6 groups => sixteenChars (groups.toList.map (·.toNat))

/-- The canonical form of an address. -/
def text (a : Address) : String := String.ofList a.chars

/-- An address and a port; groups stand in brackets. -/
def withPort (a : Address) (port : Nat) : String :=
  let shown :=
    match a with
    | v4 .. => a.chars
    | v6 _ => '[' :: (a.chars ++ [']'])
  String.ofList (shown ++ ':' :: Numeral.ofNat port)

end Address

end AccountService.Net
