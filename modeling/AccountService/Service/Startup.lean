import AccountService.Auth.KeyFolder
import AccountService.Pipeline.LogFilter
import AccountService.Service.Api
import AccountService.Service.Config

/-!
# Starting and stopping the service

The service reads its configuration, loads its keys, makes its engine, creates the seed account,
binds its routes, listens, and stops at a signal. Whatever goes wrong on the way ends it with a
report.

## Main definitions

* `Startup.Failure` — what ends a start
* `Startup.boot` — the service that a configuration makes
* `Startup.start`, `Startup.stopping`, `Startup.run` — a whole run, from the variables to the
  signal
-/

namespace AccountService.Startup

open Pipeline

/-- What ends a start: what was attempted, and why it failed. -/
structure Failure where
  message : String
  causes : List String
  deriving DecidableEq, Repr

/-- The text on `lines`, each line after the first indented. -/
def indent (first rest : String) (s : String) : String :=
  first ++ ("\n" ++ rest).intercalate (s.splitOn "\n")

/-- The report of a failure: causes follow on lines of their own, numbered if there are several. -/
def Failure.report (f : Failure) : String :=
  match f.causes with
  | [] => f.message
  | [cause] => f.message ++ "\n\nCaused by:\n" ++ indent "    " "    " cause
  | causes =>
    f.message ++ "\n\nCaused by:" ++
      String.join (causes.zipIdx.map fun (cause, i) =>
        "\n" ++ indent ("    " ++ String.ofList (Numeral.ofNat i) ++ ": ") "       " cause)

/-- An event with the part of the service that it comes from. -/
structure Entry where
  target : String
  event : Log.Event
  deriving DecidableEq, Repr

/-- The written form of an event. -/
def Entry.text (e : Entry) : String :=
  e.event.level.name ++ " " ++ e.target ++ ": " ++ e.event.message ++
    String.join (e.event.fields.map fun (name, value) => " " ++ name ++ "=" ++ value)

/-- An event of the service itself. -/
def own (level : Log.Level) (message : String) (fields : List (String × String)) : Entry :=
  ⟨"action_api", level, message, fields⟩

/-- The event of a key that was loaded. -/
def keyLoaded (folder : String) (f : KeyFolder.KeyFile) : Entry :=
  ⟨"common_auth::keystore", .debug, "loaded signing key",
    [("kid", Text.quoted f.kid), ("path", KeyFolder.pathIn folder f.name)]⟩

/-- What a name in the file system leads to: the entries of a folder, or why it has none. -/
abbrev Folders := String → Except Auth.Error (List KeyFolder.Entry)

/-- A service that is up. -/
structure Running where
  config : Config
  settings : Api.Settings Accounts.Store
  app : App (Api.World Accounts.Store)
  site : Site (Api.World Accounts.Store)

/-- The keys that a configuration names. -/
def loadKeys (c : Config) (folders : Folders) : List Entry × Except Failure Auth.KeyStore :=
  let context := "Failed to load keys from " ++ c.keysFolder
  match folders c.keysFolder with
  | .error e => ([], .error ⟨context, [e.message]⟩)
  | .ok entries =>
    let (result, loaded) := KeyFolder.loadTraced c.keysFolder entries
    let logged := loaded.map (keyLoaded c.keysFolder)
    match result with
    | .error e => (logged, .error ⟨context, [e.message]⟩)
    | .ok keys =>
      (logged ++ [own .info "signing keys loaded"
        [("folder", c.keysFolder), ("keys", String.ofList (Numeral.ofNat keys.size))]], .ok keys)

/-- The submission of the seed account. -/
def seedUser (a : SeedAdmin) : Accounts.NewUser :=
  ⟨"Administrator", a.email, Auth.admin, a.password, a.password⟩

/-- The store with the seed account, if one is configured. -/
def seed (c : Config) (scheme : Accounts.PasswordScheme) (entropy : Entropy) :
    List Entry × Except Failure (Accounts.Store × Entropy) :=
  match c.seedAdmin with
  | none => ([], .ok (.empty, entropy))
  | some admin =>
    match Accounts.Store.create scheme (seedUser admin) .empty entropy with
    | (.error e, _, _) => ([], .error ⟨"Failed to seed admin user", [e.message]⟩)
    | (.ok user, store, entropy) =>
      ([own .info "seeded admin user" [("user_id", user.id.text), ("email", user.email)]],
        .ok (store, entropy))

/-- The engine that a configuration makes. -/
def makeEngine (c : Config) (keys : Auth.KeyStore) : Except Failure Auth.Engine :=
  match Auth.Engine.make c.activeKid keys .rs256 (some c.issuer) c.leeway with
  | .ok e => .ok e
  | .error e => .error ⟨"Failed to construct auth engine", [e.message]⟩

/-- The routes over an engine. -/
def bindRoutes (settings : Api.Settings Accounts.Store) :
    Except Failure (App (Api.World Accounts.Store)) :=
  match Api.app settings with
  | .ok app => .ok app
  | .error (.refused e) => .error ⟨"Failed to build routes: " ++ e.message, []⟩
  | .error (.conflict _) => .error ⟨"Failed to build routes", []⟩

/-- The service that a configuration makes, with the events on the way. -/
def boot (c : Config) (folders : Folders) (scheme : Accounts.PasswordScheme) (entropy : Entropy) :
    List Entry × Except Failure Running :=
  match loadKeys c folders with
  | (logged, .error f) => (logged, .error f)
  | (logged, .ok keys) =>
    match makeEngine c keys with
    | .error f => (logged, .error f)
    | .ok engine =>
      match seed c scheme entropy with
      | (seeded, .error f) => (logged ++ seeded, .error f)
      | (seeded, .ok (store, entropy)) =>
        let settings : Api.Settings Accounts.Store :=
          ⟨engine, .memory scheme, c.issuer, .ofSeconds c.tokenTtl⟩
        match bindRoutes settings with
        | .error f => (logged ++ seeded, .error f)
        | .ok app =>
          (logged ++ seeded, .ok ⟨c, settings, app, ⟨.zero, false, entropy, ⟨keys, store⟩⟩⟩)

/-! ### A whole run -/

/-- What tells the service to stop. -/
inductive Signal where
  | interrupt
  | terminate
  deriving DecidableEq, Repr

/-- The name of a signal in the log. -/
def Signal.name : Signal → String
  | interrupt => "interrupt"
  | terminate => "terminate"

/-- What a run leaves: its exit code, its log, and what it reports on the way out. -/
structure Outcome where
  exit : Nat
  log : List Entry
  report : Option String
  deriving DecidableEq, Repr

/-- A start: what it leaves so far, and the service if it is up. -/
def start (vars : Config.Variables) (folders : Folders) (scheme : Accounts.PasswordScheme)
    (entropy : Entropy) : Outcome × Option Running :=
  match Config.load vars with
  | .error e => (⟨1, [], some (Failure.mk e.message e.causes).report⟩, none)
  | .ok c =>
    let starting := own .info "starting action-api" [("build", c.build)]
    match boot c folders scheme entropy with
    | (logged, .error f) =>
      (⟨1, starting :: logged ++
        [own .error "action-api stopped with an error" [("error", f.report)]], some f.report⟩, none)
    | (logged, .ok running) =>
      (⟨0, starting :: logged ++
        [own .info ("debug listening on " ++ c.debugAddress) [],
          own .info ("api listening on " ++ c.apiAddress) []], none⟩, some running)

/-- The events of a stop at a signal. -/
def stopping (signal : Signal) : List Entry :=
  [own .info ("shutdown started: " ++ signal.name) [], own .info "action-api shut down" []]

/-- A whole run, from the variables to the signal. -/
def run (vars : Config.Variables) (folders : Folders) (scheme : Accounts.PasswordScheme)
    (entropy : Entropy) (signal : Signal) : Outcome :=
  match start vars folders scheme entropy with
  | (o, none) => o
  | (o, some _) => { o with log := o.log ++ stopping signal }

/-- The written form of events that a filter lets through. -/
def lines (f : Log.Filter) (log : List Entry) : List String :=
  (log.filter fun e => f.passes e.target e.event.level).flatMap fun e => e.text.splitOn "\n"

/-- The lines of the log that a filter lets through. -/
def Outcome.lines (o : Outcome) (f : Log.Filter) : List String := Startup.lines f o.log

/-- The lines of the report. -/
def Outcome.reportLines (o : Outcome) : List String :=
  match o.report with
  | none => []
  | some report => ("Error: " ++ report).splitOn "\n"

end AccountService.Startup
