import AccountService.Auth.Engine
import AccountService.Auth.KeyFolder
import AccountService.Shared

/-!
# Keyrings

A keyring holds key stores and engines by name. Names of stores may share one store, and an
engine keeps to the store that it was made over, whatever becomes of the name.

## Main definitions

* `Auth.Keyring` — stores and engines by name
* `Auth.Keyring.insertFile`, `Auth.Keyring.remove`, `Auth.Keyring.share` — what is done to stores
* `Auth.Keyring.makeEngine`, `Auth.Keyring.generate`, `Auth.Keyring.validate` — what is done
  with engines
-/

namespace AccountService.Auth

/-- Stores and engines by name. -/
structure Keyring where
  stores : Shared KeyStore
  /-- The engines, each with the number of its store. The first binding of a name counts. -/
  engines : List (String × Engine × Nat)

namespace Keyring

/-- No store and no engine. -/
def empty : Keyring := ⟨.empty, []⟩

/-- A keyring in which a name refers to a store, be it a new one. -/
def withStore (k : Keyring) (store : String) : Keyring :=
  { k with stores := k.stores.ensure store .empty }

/-- The store that a name refers to. -/
def store (k : Keyring) (name : String) : KeyStore := (k.stores.get? name).getD .empty

/-- Binds the key pair of a key file in a store. -/
def insertFile (k : Keyring) (store kid file : String) : Keyring × Except Error Unit :=
  let k := k.withStore store
  match (k.store store).insertFile kid file with
  | .ok keys => ({ k with stores := k.stores.update store fun _ => keys }, .ok ())
  | .error e => (k, .error e)

/-- Unbinds a name in a store; tells whether it was bound. -/
def remove (k : Keyring) (store kid : String) : Keyring × Bool :=
  let k := k.withStore store
  ({ k with stores := k.stores.update store (·.remove kid) }, (k.store store).contains kid)

/-- A further name for a store. -/
def share (k : Keyring) (store further : String) : Keyring :=
  let k := k.withStore store
  { k with stores := k.stores.share store further }

/-- Makes an engine over a store. A failure leaves an engine of that name as it is. -/
def makeEngine (k : Keyring) (name store kid : String) (algorithm : Algorithm)
    (issuer : Option String) (leeway : Nat) : Keyring × Except Error Engine :=
  let k := k.withStore store
  match Engine.make kid (k.store store) algorithm issuer leeway, k.stores.cell? store with
  | .ok e, some i =>
    ({ k with engines := (name, e, i) :: k.engines.filter (·.1 != name) }, .ok e)
  | .ok e, none => (k, .ok e)
  | .error err, _ => (k, .error err)

/-- The engine of a name, with what its store holds now. -/
def engine? (k : Keyring) (name : String) : Option (Engine × KeyStore) :=
  match k.engines.find? (·.1 == name) with
  | some (_, e, i) => some (e, (k.stores.cells[i]?).getD .empty)
  | none => none

end Keyring

end AccountService.Auth
