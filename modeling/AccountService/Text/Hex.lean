/-!
# Hexadecimal digits

## Main definitions

* `Hex.value?` — the number a digit of either case stands for
* `Hex.digit` — the lower-case digit of a number below sixteen
-/

namespace AccountService.Hex

/-- The number that a hexadecimal digit stands for; both cases are read. -/
def value? (c : Char) : Option Nat :=
  let n := c.toNat
  if 48 ≤ n ∧ n ≤ 57 then some (n - 48)
  else if 97 ≤ n ∧ n ≤ 102 then some (n - 87)
  else if 65 ≤ n ∧ n ≤ 70 then some (n - 55)
  else none

/-- The lower-case digit of a number below sixteen. -/
def digit (n : Nat) : Char :=
  if n < 10 then Char.ofNat (48 + n) else Char.ofNat (87 + n)

/-- A number in a fixed count of lower-case digits, most significant first. -/
def fixed (width n : Nat) : List Char :=
  (List.range width).reverse.map fun i => digit (n / Nat.pow 16 i % 16)

/-- The shortest lower-case form of a number. -/
def shortest (n : Nat) : List Char :=
  (fixed 8 n).dropWhile (· == '0') |> fun cs => if cs.isEmpty then ['0'] else cs

/-- The number that a list of digits writes, most significant first. -/
def read? (cs : List Char) : Option Nat :=
  cs.foldlM (fun n c => (value? c).map (16 * n + ·)) 0

@[simp] theorem length_fixed (width n : Nat) : (fixed width n).length = width := by
  simp [fixed]

end AccountService.Hex
