import AccountService.Net.Address
import AccountService.Text.Blank

/-!
# Configuration

The service is configured by twelve variables. Blanks around a value do not count, and a blank
value is as good as none; what is not set has a default, except for the name of the active
key. The first variable that is not acceptable decides the error.

## Main definitions

* `Config` — an accepted configuration
* `Config.Error`, `Config.Error.chain` — why variables are not acceptable
* `Config.load` — the configuration that variables set
-/

namespace AccountService

/-- The account that is created when the service starts. -/
structure SeedAdmin where
  email : String
  password : String
  deriving DecidableEq, Repr

/-- An accepted configuration. -/
structure Config where
  host : Net.Address
  port : Nat
  debugPort : Nat
  keysFolder : String
  activeKid : String
  issuer : String
  /-- How long tokens hold, in seconds. -/
  tokenTtl : Int
  /-- How long after their end tokens are accepted, in seconds. -/
  leeway : Nat
  /-- How long a shutdown may take, in seconds. -/
  shutdownTimeout : Nat
  build : String
  seedAdmin : Option SeedAdmin
  deriving DecidableEq, Repr

namespace Config

/-- The longest time for which tokens hold, in seconds. -/
def maxTokenTtl : Int := 30 * 24 * 60 * 60

/-- Why variables are not acceptable. -/
inductive Error where
  /-- A variable is no numeral of its range. -/
  | numeral (variable_ : String) (cause : Numeral.Error)
  /-- The host is no address. -/
  | host
  | missingActiveKid
  | tokenTtlOutOfRange (seconds : Int)
  | seedIncomplete
  deriving DecidableEq, Repr

/-- The wording of an error. -/
def Error.message : Error → String
  | numeral name _ => "Failed to parse " ++ name
  | host => "Failed to parse HOST"
  | missingActiveKid => "AUTH_ACTIVE_KID must be set"
  | tokenTtlOutOfRange seconds =>
    "AUTH_TOKEN_TTL_SECS must be between 1 and " ++ String.ofList (Numeral.ofInt maxTokenTtl) ++
      ", got " ++ String.ofList (Numeral.ofInt seconds)
  | seedIncomplete => "SEED_ADMIN_EMAIL and SEED_ADMIN_PASSWORD must be set together"

/-- The wording of what an error goes back to. -/
def Error.causes : Error → List String
  | numeral _ cause => [cause.message]
  | host => ["invalid IP address syntax"]
  | _ => []

/-- An error with its causes. -/
def Error.chain (e : Error) : String := ": ".intercalate (e.message :: e.causes)

/-- A source of variables. -/
abbrev Variables := String → Option String

/-- What a variable is set to: its value without the blanks around it, unless that is blank. -/
def setting (vars : Variables) (name : String) : Option String :=
  match vars name with
  | none => none
  | some value => if Text.isBlankText value then none else some (Text.trim value)

/-- A variable that is a numeral, or its default. -/
def numeral {α : Type} (vars : Variables) (name : String)
    (read : String → Except Numeral.Error α) (default_ : α) : Except Error α :=
  match setting vars name with
  | none => .ok default_
  | some value =>
    match read value with
    | .ok n => .ok n
    | .error cause => .error (.numeral name cause)

/-- A natural number that fits so many bits. -/
def natural (bits : Nat) (value : String) : Except Numeral.Error Nat :=
  Numeral.readNat (Nat.pow 2 bits - 1) value

/-- An integer that fits 64 bits. -/
def integer (value : String) : Except Numeral.Error Int := Numeral.readInt (Nat.pow 2 63 - 1) value

/-- The address to listen on. -/
def loadHost (vars : Variables) : Except Error Net.Address :=
  match Net.Address.parse? ((setting vars "HOST").getD "0.0.0.0") with
  | some a => .ok a
  | none => .error .host

/-- How long tokens hold. -/
def loadTokenTtl (vars : Variables) : Except Error Int :=
  match numeral vars "AUTH_TOKEN_TTL_SECS" integer 3600 with
  | .error e => .error e
  | .ok seconds =>
    if 1 ≤ seconds ∧ seconds ≤ maxTokenTtl then .ok seconds
    else .error (.tokenTtlOutOfRange seconds)

/-- Where the keys lie unless it is set. -/
def defaultKeysFolder : String := "zarf/keys"

/-- The account to create: its email and its password, or neither. -/
def loadSeedAdmin (vars : Variables) : Except Error (Option SeedAdmin) :=
  match setting vars "SEED_ADMIN_EMAIL", setting vars "SEED_ADMIN_PASSWORD" with
  | some email, some password => .ok (some ⟨email, password⟩)
  | none, none => .ok none
  | _, _ => .error .seedIncomplete

/-- The configuration that variables set. -/
def load (vars : Variables) : Except Error Config := do
  let host ← loadHost vars
  let port ← numeral vars "PORT" (natural 16) 3000
  let debugPort ← numeral vars "DEBUG_PORT" (natural 16) 4000
  let activeKid ←
    match setting vars "AUTH_ACTIVE_KID" with
    | some kid => .ok kid
    | none => .error .missingActiveKid
  let tokenTtl ← loadTokenTtl vars
  let leeway ← numeral vars "AUTH_LEEWAY_SECS" (natural 32) 0
  let shutdownTimeout ← numeral vars "SHUTDOWN_TIMEOUT_SECS" (natural 64) 20
  let seedAdmin ← loadSeedAdmin vars
  return {
    host, port, debugPort, activeKid, tokenTtl, leeway, shutdownTimeout, seedAdmin
    keysFolder := (setting vars "AUTH_KEYS_FOLDER").getD defaultKeysFolder
    issuer := (setting vars "AUTH_ISSUER").getD "action project"
    build := (setting vars "BUILD").getD "develop" }

/-- Where the interface listens. -/
def apiAddress (c : Config) : String := c.host.withPort c.port

/-- Where the debug interface listens. -/
def debugAddress (c : Config) : String := c.host.withPort c.debugPort

end Config

end AccountService
