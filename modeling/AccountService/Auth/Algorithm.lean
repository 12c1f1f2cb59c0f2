import AccountService.Crypto.Signature

/-!
# Names of signing algorithms

A token declares its signing algorithm by name. Of the names that are known, those of RSA
schemes can be signed with and verified here.

## Main definitions

* `Auth.Algorithm` — the known algorithms
* `Auth.Algorithm.name`, `Auth.Algorithm.ofName?` — their names
* `Auth.Algorithm.scheme?` — the RSA scheme that an algorithm stands for
-/

namespace AccountService.Auth

/-- The algorithms that are known by name. -/
inductive Algorithm where
  | hs256
  | hs384
  | hs512
  | es256
  | es384
  | rs256
  | rs384
  | rs512
  | ps256
  | ps384
  | ps512
  | edDSA
  deriving DecidableEq, Repr

namespace Algorithm

/-- The name of an algorithm. -/
def name : Algorithm → String
  | hs256 => "HS256"
  | hs384 => "HS384"
  | hs512 => "HS512"
  | es256 => "ES256"
  | es384 => "ES384"
  | rs256 => "RS256"
  | rs384 => "RS384"
  | rs512 => "RS512"
  | ps256 => "PS256"
  | ps384 => "PS384"
  | ps512 => "PS512"
  | edDSA => "EdDSA"

/-- All known algorithms. -/
def all : List Algorithm :=
  [hs256, hs384, hs512, es256, es384, rs256, rs384, rs512, ps256, ps384, ps512, edDSA]

/-- The algorithm of a name. -/
def ofName? (s : String) : Option Algorithm := all.find? (·.name == s)

/-- The RSA scheme that an algorithm stands for. -/
def scheme? : Algorithm → Option Signature.Scheme
  | rs256 => some ⟨.fixed, .sha256⟩
  | rs384 => some ⟨.fixed, .sha384⟩
  | rs512 => some ⟨.fixed, .sha512⟩
  | ps256 => some ⟨.salted, .sha256⟩
  | ps384 => some ⟨.salted, .sha384⟩
  | ps512 => some ⟨.salted, .sha512⟩
  | _ => none

theorem name_injective {a b : Algorithm} (h : a.name = b.name) : a = b := by
  cases a <;> cases b <;> first | rfl | exact absurd h (by decide)

theorem ofName?_name (a : Algorithm) : ofName? a.name = some a := by
  cases a <;> decide

theorem eq_of_ofName? {s : String} {a : Algorithm} (h : ofName? s = some a) : a.name = s := by
  have := List.find?_some h
  simpa using this

end Algorithm

end AccountService.Auth
