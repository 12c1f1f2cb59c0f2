import AccountService.Auth.Error
import AccountService.Crypto.Pem

/-!
# Key stores

A key store binds names to RSA key pairs, at most one to a name. The last binding of a name
counts.

## Main definitions

* `Auth.KeyStore` — names bound to key pairs
* `Auth.KeyStore.insert`, `Auth.KeyStore.remove`, `Auth.KeyStore.get?` — binding, unbinding
  and asking
* `Auth.KeyStore.insertFile` — binding the key pair of a key file
* `Auth.KeyStore.lookup` — asking for a key that has to be there

## Main statements

* `Auth.KeyStore.get?_insert`, `Auth.KeyStore.get?_remove` — what is bound afterwards
* `Auth.KeyStore.lookup_eq_ok_iff` — what is found
-/

namespace AccountService.Auth

/-- Names bound to RSA key pairs. -/
structure KeyStore where
  /-- The bindings; a name occurs once. -/
  bindings : List (String × Rsa.KeyPair)
  deriving DecidableEq, Inhabited

namespace KeyStore

/-- The store without a key. -/
def empty : KeyStore := ⟨[]⟩

/-- The key pair bound to a name. -/
def get? (s : KeyStore) (kid : String) : Option Rsa.KeyPair :=
  (s.bindings.find? (·.1 == kid)).map (·.2)

/-- Whether a name is bound. -/
def contains (s : KeyStore) (kid : String) : Bool := (s.get? kid).isSome

/-- How many names are bound. -/
def size (s : KeyStore) : Nat := s.bindings.length

/-- Whether no name is bound. -/
def isEmpty (s : KeyStore) : Bool := s.size == 0

/-- Unbinds a name. -/
def remove (s : KeyStore) (kid : String) : KeyStore := ⟨s.bindings.filter (·.1 != kid)⟩

/-- Binds a name, in place of what it was bound to. -/
def insert (s : KeyStore) (kid : String) (key : Rsa.KeyPair) : KeyStore :=
  ⟨(kid, key) :: (s.remove kid).bindings⟩

/-- Binds the key pair of a key file. -/
def insertFile (s : KeyStore) (kid file : String) : Except Error KeyStore :=
  match Pem.keyPair? file with
  | some key => .ok (s.insert kid key)
  | none => .error (.keyParse kid "no usable RSA private key")

/-- The key pair bound to a name that has to be bound. -/
def lookup (s : KeyStore) (kid : String) : Except Error Rsa.KeyPair :=
  match s.get? kid with
  | some key => .ok key
  | none => .error (.keyNotFound kid)

theorem find?_filter_ne {β : Type} (kid other : String) (xs : List (String × β)) :
    (xs.filter (·.1 != kid)).find? (·.1 == other) =
      if other = kid then none else xs.find? (·.1 == other) := by
  induction xs with
  | nil => simp
  | cons x xs ih =>
    by_cases hx : x.1 = kid <;> by_cases ho : x.1 = other <;> simp_all

theorem get?_remove (s : KeyStore) (kid other : String) :
    (s.remove kid).get? other = if other = kid then none else s.get? other := by
  unfold get? remove
  rw [find?_filter_ne]
  split <;> rfl

theorem get?_insert (s : KeyStore) (kid other : String) (key : Rsa.KeyPair) :
    (s.insert kid key).get? other = if other = kid then some key else s.get? other := by
  by_cases h : other = kid
  · simp [get?, insert, h]
  · have : (kid == other) = false := by simpa using Ne.symm h
    have hr := get?_remove s kid other
    simp only [h, if_false] at hr ⊢
    rw [← hr]
    simp [get?, insert, this]

theorem lookup_eq_ok_iff {s : KeyStore} {kid : String} {key : Rsa.KeyPair} :
    s.lookup kid = .ok key ↔ s.get? kid = some key := by
  rw [lookup]
  split
  · next key' h => simp [h]
  · next h => simp [h]

end KeyStore

end AccountService.Auth
