import AccountService.Proofs.Text.Blank
import AccountService.Service.Config

/-!
# What variables are set to

A variable counts for its value without the blanks around it, and a blank value is as good as none.
So the texts of a configuration never have blanks at their ends, and what is said of variables is
said of these values, whatever stands around them.

## Main definitions

* `Text.Trimmed` — a text that is not blank and has no blanks around it
* `Config.given`, `Config.filled` — what a variable is set to, without and with its default
* `Config.Proper` — the fields of a configuration that can be accepted

## Main statements

* `Config.given_eq_empty_iff` — a blank value counts as none
* `Config.load_eq_of_given_eq` — nothing but the trimmed values of the twelve variables counts
-/

namespace AccountService

/-- A text that is not blank and has no blanks around it. -/
structure Text.Trimmed (s : String) : Prop where
  trim_eq : Text.trim s = s
  not_blank : Text.isBlankText s = false

namespace Config

/-- What a variable is set to, without the blanks around it. A blank value is as good as none. -/
def given (vars : Variables) (name : String) : String := Text.trim ((vars name).getD "")

/-- What a variable is set to, with a default filled in. -/
def filled (vars : Variables) (name default_ : String) : String :=
  if given vars name = "" then default_ else given vars name

/-- The twelve variables. -/
def names : List String :=
  ["HOST", "PORT", "DEBUG_PORT", "AUTH_KEYS_FOLDER", "AUTH_ACTIVE_KID", "AUTH_ISSUER",
    "AUTH_TOKEN_TTL_SECS", "AUTH_LEEWAY_SECS", "SHUTDOWN_TIMEOUT_SECS", "BUILD", "SEED_ADMIN_EMAIL",
    "SEED_ADMIN_PASSWORD"]

/-- The fields of a configuration that was accepted: all texts are trimmed, and all numbers are of
their range. -/
structure Proper (c : Config) : Prop where
  port : c.port ≤ Nat.pow 2 16 - 1
  debugPort : c.debugPort ≤ Nat.pow 2 16 - 1
  keysFolder : Text.Trimmed c.keysFolder
  activeKid : Text.Trimmed c.activeKid
  issuer : Text.Trimmed c.issuer
  tokenTtl : 1 ≤ c.tokenTtl ∧ c.tokenTtl ≤ maxTokenTtl
  leeway : c.leeway ≤ Nat.pow 2 32 - 1
  shutdownTimeout : c.shutdownTimeout ≤ Nat.pow 2 64 - 1
  build : Text.Trimmed c.build
  seedAdmin : ∀ a ∈ c.seedAdmin, Text.Trimmed a.email ∧ Text.Trimmed a.password

variable {vars vars' : Variables} {name default_ : String}

/-! ### Settings -/

/-- A blank value counts as none. -/
theorem given_eq_empty_iff :
    given vars name = "" ↔ ∀ value ∈ vars name, Text.isBlankText value = true := by
  rw [← not_iff_not, given, ← Ne, Text.trim_ne_empty_iff]
  cases vars name with
  | none => simp [Text.isBlankText]
  | some value => simp

theorem setting_eq_given (vars : Variables) (name : String) :
    setting vars name = if given vars name = "" then none else some (given vars name) := by
  rw [setting]
  cases hvalue : vars name with
  | none => rw [if_pos (given_eq_empty_iff.2 (by simp [hvalue]))]
  | some value =>
    have hblank : given vars name = "" ↔ Text.isBlankText value = true := by
      simp [given_eq_empty_iff, hvalue]
    have hgiven : given vars name = Text.trim value := by rw [given, hvalue, Option.getD_some]
    rw [hgiven] at hblank ⊢
    simp only [hblank]

theorem setting_eq_none (h : given vars name = "") : setting vars name = none := by
  rw [setting_eq_given, if_pos h]

theorem setting_eq_some (h : given vars name ≠ "") :
    setting vars name = some (given vars name) := by
  rw [setting_eq_given, if_neg h]

theorem getD_setting (vars : Variables) (name default_ : String) :
    (setting vars name).getD default_ = filled vars name default_ := by
  rw [setting_eq_given, filled]
  split <;> rfl

theorem trimmed_given (h : given vars name ≠ "") : Text.Trimmed (given vars name) where
  trim_eq := Text.trim_trim _
  not_blank := by
    rw [← Text.trim_ne_empty_iff, given, Text.trim_trim]
    exact h

/-- A default that is trimmed stands in for what is not set. -/
theorem trimmed_filled (h : Text.Trimmed default_) : Text.Trimmed (filled vars name default_) := by
  rw [filled]
  split
  · exact h
  · next hgiven => exact trimmed_given hgiven

/-- Nothing but the trimmed values of the twelve variables counts. -/
theorem load_eq_of_given_eq (h : ∀ name ∈ names, given vars' name = given vars name) :
    load vars' = load vars := by
  have hsetting : ∀ name ∈ names, setting vars' name = setting vars name := by
    intro name hname
    rw [setting_eq_given, setting_eq_given, h name hname]
  simp only [names, List.forall_mem_cons] at hsetting
  obtain ⟨hhost, hport, hdebugPort, hkeysFolder, hactiveKid, hissuer, htokenTtl, hleeway,
    hshutdownTimeout, hbuild, hemail, hpassword, -⟩ := hsetting
  simp only [load, loadHost, loadTokenTtl, loadSeedAdmin, numeral, hhost, hport, hdebugPort,
    hkeysFolder, hactiveKid, hissuer, htokenTtl, hleeway, hshutdownTimeout, hbuild, hemail, hpassword]

end Config

end AccountService
