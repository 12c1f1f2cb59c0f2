import AccountService.Accounts.Store
import AccountService.Pipeline.App
import AccountService.Text.Quoted

/-!
# The interface of the service

The routes of the first version: a check of the pipeline with and without a role, tokens for
credentials, and accounts created and shown.

## Main definitions

* `Api.Settings` — what the routes depend on
* `Api.World` — what they act on
* `Api.app` — the application
-/

namespace AccountService.Api

open Http Pipeline

/-- What the routes depend on. -/
structure Settings (σ : Type) where
  engine : Auth.Engine
  backend : Accounts.Backend σ
  /-- The issuer of the tokens that are handed out. -/
  issuer : String
  /-- How long those tokens hold. -/
  tokenTtl : Span

/-- What the routes act on: the keys and the accounts. -/
structure World (σ : Type) where
  keys : Auth.KeyStore
  accounts : σ

/-! ### Reading requests -/

/-- The greatest length of a body that is read. -/
def maxBodyOctets : Nat := 1024 * 1024

/-- The value of a parameter of the route. Asking for one that the route has not is an internal
error. -/
def param {τ : Type} (r : Request) (name : String) : Action τ String :=
  match r.params with
  | .unrouted => fail (.internal "reading path parameters: the request came by no route" [])
  | .unreadable => fail (.internal "reading path parameters: a parameter is not UTF-8" [])
  | .read params =>
    match params.find? (·.1 == name) with
    | some (_, value) => pure value
    | none => fail (.internal ("route has no parameter " ++ Text.quoted name) [])

/-- The submission in the body of a request. -/
def newUser {τ : Type} (r : Request) : Action τ Accounts.NewUser :=
  if maxBodyOctets < r.incoming.body.length then
    fail (.request (.badRequest "unable to read payload: length limit exceeded"))
  else
    match Accounts.NewUser.ofBody? r.incoming.body with
    | some n => pure n
    | none => fail (.request (.badRequest "unable to decode payload: not a submission"))

/-- Passes on a result or a refusal by the store. -/
def orFail {τ α : Type} : Except Accounts.Error α → Action τ α
  | .ok a => pure a
  | .error e => fail e.toPipeline

/-! ### Handlers -/

/-- The check of the pipeline itself. -/
def test {τ : Type} : Handler τ := fun r => do
  let _ ← r.getContext
  respond (some (.record [("status", .text "OK")])) .ok

/-- The refusal of everybody who is neither the owner nor an administrator. -/
def adminRequired : Pipeline.Error := .ofForbidden ⟨Auth.admin⟩

variable {σ : Type} (s : Settings σ)

/-- Creates an account. -/
def create : Handler (World σ) := fun r => do
  let context ← r.getContext
  let n ← newUser r
  let x ← get
  let (result, accounts, entropy) := s.backend.create n x.world.accounts x.entropy
  set { x with world := { x.world with accounts := accounts }, entropy := entropy }
  let user ← orFail result
  log ⟨.info, "user created",
    [("trace_id", context.traceId.text), ("user_id", user.id.text)]⟩
  respond (some user.json) .created

/-- Shows an account to its owner or to an administrator. -/
def queryById : Handler (World σ) := fun r => do
  let _ ← r.getContext
  let id ← param r "id"
  match r.claims with
  | none => fail adminRequired
  | some claims =>
    if Auth.isSelfOrRole claims id Auth.admin then
      let user ← orFail (s.backend.byId (← get).world.accounts id)
      respond (some user.json) .ok
    else fail adminRequired

/-- Shows the account of an email. -/
def queryByEmail : Handler (World σ) := fun r => do
  let _ ← r.getContext
  let email ← param r "email"
  let user ← orFail (s.backend.byEmail (← get).world.accounts email)
  respond (some user.json) .ok

/-- Hands out a token for the name and the password of an account. -/
def token : Handler (World σ) := fun r => do
  let context ← r.getContext
  match Auth.basicCredentials r.incoming.headers with
  | .error e => fail (.ofAuth e)
  | .ok (email, password) => do
    let x ← get
    let user ← orFail (s.backend.authenticate x.world.accounts email password)
    match Auth.Claims.issue x.clock user.id.text s.issuer [user.role] s.tokenTtl with
    | .error e => fail (.ofAuth e)
    | .ok claims => do
      let (salt, entropy) := x.entropy.take s.engine.scheme.digest.size
      set { x with entropy := entropy }
      match s.engine.generate x.world.keys salt claims with
      | .error e => do
        log ⟨.error, "issuing token",
          [("trace_id", context.traceId.text), ("error", e.message)]⟩
        fail (.ofAuth e)
      | .ok token => respond (some (.record [("token", .text token)])) .ok

/-! ### Routes -/

/-- The group of all routes. -/
def version : String := "/v1"

/-- The application. -/
def app : Except RouteFault (App (World σ)) := do
  let authen := authenticate s.engine World.keys
  let admin := authorize Auth.admin
  let a := App.new standard
  let a ← a.handle "GET" version "/test" test []
  let a ← a.handle "GET" version "/testauth" test [authen, admin]
  let a ← a.handle "GET" version "/users/token" (token s) []
  let a ← a.handle "POST" version "/users" (create s) [authen, admin]
  let a ← a.handle "GET" version "/users/:id" (queryById s) [authen]
  a.handle "GET" version "/users/email/:email" (queryByEmail s) [authen, admin]

end AccountService.Api
