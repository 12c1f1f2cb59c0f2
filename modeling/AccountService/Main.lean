import AccountService.Service.Startup

/-!
# The command

The service is configured by its environment. The arguments name the files of the keys folder.
The log goes to standard output, the report of a failed start to standard error, and the
service runs until its input ends.
-/

namespace AccountService.Main

open Startup

/-- The variables that the service looks at. -/
def variableNames : List String :=
  ["HOST", "PORT", "DEBUG_PORT", "AUTH_KEYS_FOLDER", "AUTH_ACTIVE_KID", "AUTH_ISSUER",
    "AUTH_TOKEN_TTL_SECS", "AUTH_LEEWAY_SECS", "SHUTDOWN_TIMEOUT_SECS", "BUILD",
    "SEED_ADMIN_EMAIL", "SEED_ADMIN_PASSWORD", "RUST_LOG"]

/-- The environment, as far as it is looked at. -/
def readVariables : IO Config.Variables := do
  let mut values := []
  for name in variableNames do
    if let some value ← IO.getEnv name then values := (name, value) :: values
  let known := values
  return fun name => (known.find? (·.1 == name)).map (·.2)

/-- The keys folder with the files of the given names. -/
def readFolder (folder : String) (names : List String) : IO (List KeyFolder.Entry) :=
  names.mapM fun name => do
    let contents ← IO.FS.readBinFile (KeyFolder.pathIn folder name)
    return ⟨name, .file contents.data.toList⟩

/-- Waits until the input ends. -/
partial def waitForEnd (input : IO.FS.Stream) : IO Unit := do
  if !(← input.getLine).isEmpty then waitForEnd input

/-- Starts the service, waits for the end of the input, and stops it. -/
def serve (names : List String) : IO UInt32 := do
  let vars ← readVariables
  let folder := (Config.setting vars "AUTH_KEYS_FOLDER").getD Config.defaultKeysFolder
  let entries ← readFolder folder names
  let folders : Folders := fun path =>
    if path == folder then .ok entries else .error (KeyFolder.missing path)
  let seed ← IO.getRandomBytes 32
  let filter := Log.Filter.ofSetting (vars "RUST_LOG")
  let (outcome, running?) := start vars folders .digest (.ofSeed seed.data.toList)
  for line in outcome.lines filter do IO.println line
  for line in outcome.reportLines do IO.eprintln line
  if running?.isSome then
    waitForEnd (← IO.getStdin)
    for line in lines filter (stopping .terminate) do IO.println line
  return UInt32.ofNat outcome.exit

end AccountService.Main

/-- Runs the service on the files of these names. -/
def main (names : List String) : IO UInt32 := AccountService.Main.serve names
