import AccountService.Accounts.NewUser
import AccountService.Accounts.Password
import AccountService.Text.Case
import AccountService.Uuid

/-!
# The store of accounts

Accounts are kept in memory under their identifiers, in the order of their creation. No two have
emails that are equal up to the case of ASCII letters.

## Main definitions

* `Accounts.User`, `Accounts.Account` — an account as shown and as kept
* `Accounts.NewUser.prepare` — the account that a submission makes ready
* `Accounts.Store` — what is kept under identifiers
* `Accounts.Store.enroll`, `Accounts.Store.create`, `Accounts.Store.byId`, `Accounts.Store.byEmail`,
  `Accounts.Store.authenticate` — what can be asked of it
-/

namespace AccountService.Accounts

/-- An account as shown. -/
structure User where
  id : Uuid
  name : String
  email : String
  role : String
  deriving DecidableEq, Repr

/-- The value that an account is sent as. -/
def User.json (u : User) : Json :=
  .record
    [("id", .text u.id.text), ("name", .text u.name), ("email", .text u.email),
      ("role", .text u.role)]

/-- The account that a submission makes, with blanks around name and email taken off. -/
def NewUser.toUser (n : NewUser) (id : Uuid) : User :=
  ⟨id, Text.trim n.name, Text.trim n.email, n.role⟩

/-- An account as kept. -/
structure Account where
  user : User
  password : PasswordHash
  deriving DecidableEq, Repr

/-- The octets of a salt. -/
def saltSize : Nat := 16

/-- The account that a submission makes ready, whatever accounts there are: fields are checked
first, then the password is hashed, and last an identifier is drawn. -/
def NewUser.prepare (scheme : PasswordScheme) (n : NewUser) (e : Entropy) :
    Except Error Account × Entropy :=
  match n.validate with
  | .error fields => (.error (.validation fields), e)
  | .ok () =>
    let (salt, e) := e.take saltSize
    match scheme.hash salt n.password with
    | .error detail => (.error (.hash detail), e)
    | .ok password =>
      let (id, e) := Uuid.draw e
      (.ok ⟨n.toUser id, password⟩, e)

/-- What is kept under identifiers, in the order of its creation. -/
structure Store where
  entries : List (Uuid × Account)
  deriving DecidableEq, Repr, Inhabited

namespace Store

/-- The store without accounts. -/
def empty : Store := ⟨[]⟩

/-- The accounts, under whatever identifiers. -/
def accounts (s : Store) : List Account := s.entries.map Prod.snd

/-- The account of an email, up to the case of ASCII letters. -/
def findEmail? (s : Store) (email : String) : Option Account :=
  s.accounts.find? fun a => Text.eqIgnoringCase a.user.email email

/-- What is kept under an identifier. -/
def findId? (s : Store) (id : Uuid) : Option Account :=
  (s.entries.find? (·.1 == id)).map Prod.snd

/-- Puts an account under its identifier, in place of what was there. -/
def insert (a : Account) (s : Store) : Store :=
  ⟨s.entries.filter (·.1 != a.user.id) ++ [(a.user.id, a)]⟩

/-- Puts an account into the store unless its email is taken. -/
def enroll (a : Account) (s : Store) : Except Error User × Store :=
  match s.findEmail? a.user.email with
  | some _ => (.error .duplicateEmail, s)
  | none => (.ok a.user, s.insert a)

/-- Creates an account: the store is asked only when the account is ready to be put into it. A
failure leaves the store as it is. -/
def create (scheme : PasswordScheme) (n : NewUser) (s : Store) (e : Entropy) :
    Except Error User × Store × Entropy :=
  match n.prepare scheme e with
  | (.error err, e) => (.error err, s, e)
  | (.ok a, e) =>
    let (result, s) := s.enroll a
    (result, s, e)

/-- The account that a text denotes as an identifier. -/
def byId (s : Store) (id : String) : Except Error User :=
  match Uuid.parse? id with
  | none => .error .invalidId
  | some id =>
    match s.findId? id with
    | some a => .ok a.user
    | none => .error .notFound

/-- The account of an email. -/
def byEmail (s : Store) (email : String) : Except Error User :=
  match s.findEmail? email with
  | some a => .ok a.user
  | none => .error .notFound

/-- The account of an email whose password is given. -/
def authenticate (scheme : PasswordScheme) (s : Store) (email password : String) :
    Except Error User :=
  match s.findEmail? email with
  | none => .error .invalidCredentials
  | some a => if scheme.verify password a.password then .ok a.user else .error .invalidCredentials

end Store

/-! ### Backends -/

/-- What handlers need of a store of accounts kept in a state `σ`. -/
structure Backend (σ : Type) where
  create : NewUser → σ → Entropy → Except Error User × σ × Entropy
  byId : σ → String → Except Error User
  byEmail : σ → String → Except Error User
  authenticate : σ → String → String → Except Error User

/-- The store in memory. -/
def Backend.memory (scheme : PasswordScheme) : Backend Store where
  create := Store.create scheme
  byId := Store.byId
  byEmail := Store.byEmail
  authenticate := Store.authenticate scheme

end AccountService.Accounts
