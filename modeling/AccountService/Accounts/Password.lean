import AccountService.Crypto.Digest

/-!
# Passwords

A password is kept as a salt and a digest of both. What is used for that is a scheme; the
store of accounts works with any.

## Main definitions

* `Accounts.PasswordHash` — what is kept of a password
* `Accounts.PasswordScheme` — how it is made and checked
* `Accounts.PasswordScheme.Faithful` — exactly the password that was hashed verifies
* `Accounts.PasswordScheme.digest` — the scheme of the service
-/

namespace AccountService.Accounts

/-- What is kept of a password. -/
structure PasswordHash where
  salt : Octets
  digest : Octets
  deriving DecidableEq, Repr

/-- How passwords are hashed and checked. -/
structure PasswordScheme where
  /-- What to keep of a password, given a salt, or why that cannot be made. -/
  hash : Octets → String → Except String PasswordHash
  /-- Whether a password is the one that something was kept of. -/
  verify : String → PasswordHash → Bool

/-- Exactly the password that was hashed verifies. -/
def PasswordScheme.Faithful (s : PasswordScheme) : Prop :=
  ∀ salt p q h, s.hash salt p = .ok h → (s.verify q h = true ↔ q = p)

/-- Keeps the digest of salt and password. -/
def PasswordScheme.digest : PasswordScheme where
  hash salt password :=
    .ok ⟨salt, Digest.Algorithm.sha512.hash (salt ++ Octets.ofText password)⟩
  verify password h :=
    Digest.Algorithm.sha512.hash (h.salt ++ Octets.ofText password) == h.digest

end AccountService.Accounts
