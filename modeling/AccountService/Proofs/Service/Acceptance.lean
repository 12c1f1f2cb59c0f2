import AccountService.Proofs.Except
import AccountService.Proofs.Net.Address
import AccountService.Proofs.Service.Config
import AccountService.Proofs.Text.Numeral

/-!
# Which variables are accepted

What variables are accepted for is said here without a reader: every field of the configuration is
what the text of its variable writes, with the defaults filled in, and the requirements stand in the
order in which they are checked. Each step of loading is decided by its own requirements, and of two
steps one after the other the requirements are those of the first and then those of the second, so
that the whole fails with the error of the first requirement that is not met.

## Main definitions

* `Config.Requirement`, `Config.requirements` — what is required, in the order of the checks
* `Config.Breaks` — the error of the first requirement that is not met
* `Config.Meant` — the configuration that variables mean

## Main statements

* `Config.load_eq_ok_iff` — the configuration that is loaded is the one that the variables mean
* `Config.checks_load` — loading is decided by the requirements
* `Config.proper_of_load` — an accepted configuration is proper
-/

namespace AccountService.Config

/-! ### Requirements -/

/-- What is required of variables. -/
inductive Requirement where
  /-- The host is an address. -/
  | host
  /-- A variable with a default is the numeral of a number of so many bits. -/
  | natural (name default_ : String) (bits : Nat)
  /-- The name of the active key is set. -/
  | activeKid
  /-- The time for which tokens hold is the numeral of a number of 64 bits. -/
  | tokenTtl
  /-- That number is of the range of such times. -/
  | tokenTtlRange
  /-- The email and the password of the first account are set together. -/
  | seedAdmin

/-- The requirements in the order in which they are checked. -/
def requirements : List Requirement :=
  [.host, .natural "PORT" "3000" 16, .natural "DEBUG_PORT" "4000" 16, .activeKid, .tokenTtl,
    .tokenTtlRange, .natural "AUTH_LEEWAY_SECS" "0" 32, .natural "SHUTDOWN_TIMEOUT_SECS" "20" 64,
    .seedAdmin]

/-- The text of the time for which tokens hold. -/
def ttlChars (vars : Variables) : List Char :=
  (filled vars "AUTH_TOKEN_TTL_SECS" "3600").toList

/-- When a requirement is met. -/
def Requirement.Met (vars : Variables) : Requirement → Prop
  | host => ∃ a, Net.Address.Writes (filled vars "HOST" "0.0.0.0").toList a
  | natural name default_ bits =>
    ∃ n, Numeral.Natural (filled vars name default_).toList n ∧ n < 2 ^ bits
  | activeKid => given vars "AUTH_ACTIVE_KID" ≠ ""
  | tokenTtl => ∃ z, Numeral.Whole (ttlChars vars) z ∧ -2 ^ 63 ≤ z ∧ z < 2 ^ 63
  | tokenTtlRange => ∃ z, Numeral.Whole (ttlChars vars) z ∧ 1 ≤ z ∧ z ≤ 2592000
  | seedAdmin => given vars "SEED_ADMIN_EMAIL" = "" ↔ given vars "SEED_ADMIN_PASSWORD" = ""

/-- The error of a requirement that is not met. -/
inductive Requirement.Reports (vars : Variables) : Requirement → Error → Prop where
  | host : Reports vars .host .host
  | natural {name default_ : String} {bits : Nat} {cause : Numeral.Error}
      (h : Numeral.NaturalFault (2 ^ bits - 1) (filled vars name default_).toList cause) :
      Reports vars (.natural name default_ bits) (.numeral name cause)
  | activeKid : Reports vars .activeKid .missingActiveKid
  | tokenTtl {cause : Numeral.Error}
      (h : Numeral.WholeFault (2 ^ 63 - 1) (ttlChars vars) cause) :
      Reports vars .tokenTtl (.numeral "AUTH_TOKEN_TTL_SECS" cause)
  | tokenTtlRange {z : Int} (h : Numeral.Whole (ttlChars vars) z) :
      Reports vars .tokenTtlRange (.tokenTtlOutOfRange z)
  | seedAdmin : Reports vars .seedAdmin .seedIncomplete

/-- The error of the first requirement that is not met. -/
inductive Breaks (vars : Variables) : List Requirement → Error → Prop where
  | here {r : Requirement} {rs : List Requirement} {e : Error} (h : ¬r.Met vars)
      (he : r.Reports vars e) : Breaks vars (r :: rs) e
  | later {r : Requirement} {rs : List Requirement} {e : Error} (h : r.Met vars)
      (hrest : Breaks vars rs e) : Breaks vars (r :: rs) e

/-! ### Configurations -/

/-- The first account that an email and a password set. -/
inductive Seeds : String → String → Option SeedAdmin → Prop where
  | none : Seeds "" "" none
  | some {email password : String} (hemail : email ≠ "") (hpassword : password ≠ "") :
      Seeds email password (some ⟨email, password⟩)

/-- The configuration that variables mean: every field is what the text of its variable writes. -/
structure Meant (vars : Variables) (c : Config) : Prop where
  host : Net.Address.Writes (filled vars "HOST" "0.0.0.0").toList c.host
  port : Numeral.Natural (filled vars "PORT" "3000").toList c.port ∧ c.port < 2 ^ 16
  debugPort : Numeral.Natural (filled vars "DEBUG_PORT" "4000").toList c.debugPort ∧
    c.debugPort < 2 ^ 16
  keysFolder : c.keysFolder = filled vars "AUTH_KEYS_FOLDER" "zarf/keys"
  activeKid : c.activeKid = given vars "AUTH_ACTIVE_KID" ∧ c.activeKid ≠ ""
  issuer : c.issuer = filled vars "AUTH_ISSUER" "action project"
  tokenTtl : Numeral.Whole (ttlChars vars) c.tokenTtl ∧ 1 ≤ c.tokenTtl ∧ c.tokenTtl ≤ 2592000
  leeway : Numeral.Natural (filled vars "AUTH_LEEWAY_SECS" "0").toList c.leeway ∧
    c.leeway < 2 ^ 32
  shutdownTimeout : Numeral.Natural (filled vars "SHUTDOWN_TIMEOUT_SECS" "20").toList
    c.shutdownTimeout ∧ c.shutdownTimeout < 2 ^ 64
  build : c.build = filled vars "BUILD" "develop"
  seedAdmin : Seeds (given vars "SEED_ADMIN_EMAIL") (given vars "SEED_ADMIN_PASSWORD") c.seedAdmin

variable {vars : Variables} {name value : String} {α β : Type} {e : Error}

/-! ### Steps -/

theorem Breaks.cons_iff {r : Requirement} {rs : List Requirement} :
    Breaks vars (r :: rs) e ↔
      ¬r.Met vars ∧ r.Reports vars e ∨ r.Met vars ∧ Breaks vars rs e := by
  constructor
  · intro h
    cases h with
    | here h he => exact .inl ⟨h, he⟩
    | later h hrest => exact .inr ⟨h, hrest⟩
  · rintro (⟨h, he⟩ | ⟨h, hrest⟩)
    · exact .here h he
    · exact .later h hrest

/-- Of requirements and further ones the first that is not met is one of the former, or, if all of
them are met, one of the latter. -/
theorem Breaks.append_iff {rs ss : List Requirement} :
    Breaks vars (rs ++ ss) e ↔
      Breaks vars rs e ∨ (∀ r ∈ rs, r.Met vars) ∧ Breaks vars ss e := by
  induction rs with
  | nil =>
    have hnil : ¬Breaks vars [] e := by rintro ⟨⟩
    simp [hnil]
  | cons r rs ih =>
    rw [List.cons_append, cons_iff, cons_iff, ih, List.forall_mem_cons, and_or_left, or_assoc,
      and_assoc]

/-- A step is decided by requirements: it succeeds if all are met, and otherwise fails with the error
of the first that is not. -/
structure Checks (vars : Variables) (rs : List Requirement) (x : Except Error α) : Prop where
  ok_iff : (∃ a, x = .ok a) ↔ ∀ r ∈ rs, r.Met vars
  error_iff : ∀ e, x = .error e ↔ Breaks vars rs e

variable {rs ss : List Requirement} {r : Requirement} {x : Except Error α}

theorem Checks.ok (a : α) : Checks vars [] (.ok a : Except Error α) where
  ok_iff := by simp
  error_iff e := iff_of_false nofun nofun

/-- A step with one requirement. -/
theorem Checks.single (hok : (∃ a, x = .ok a) ↔ r.Met vars)
    (herror : ¬r.Met vars → ∀ e, x = .error e ↔ r.Reports vars e) : Checks vars [r] x where
  ok_iff := by rw [hok, List.forall_mem_singleton]
  error_iff e := by
    have hnil : ¬Breaks vars [] e := by rintro ⟨⟩
    rw [Breaks.cons_iff, or_iff_left fun h => hnil h.2]
    constructor
    · intro he
      have hmet : ¬r.Met vars := by
        rw [← hok, he]
        exact nofun
      exact ⟨hmet, (herror hmet e).1 he⟩
    · rintro ⟨hmet, he⟩
      exact (herror hmet e).2 he

/-- One step after another has the requirements of both. -/
theorem Checks.bind {f : α → Except Error β} (hx : Checks vars rs x)
    (hf : ∀ a, x = .ok a → Checks vars ss (f a)) : Checks vars (rs ++ ss) (x >>= f) where
  ok_iff := by
    rw [List.forall_mem_append, ← hx.ok_iff]
    constructor
    · rintro ⟨b, hb⟩
      obtain ⟨a, ha, hb⟩ := bind_eq_ok_iff.1 hb
      exact ⟨⟨a, ha⟩, (hf a ha).ok_iff.1 ⟨b, hb⟩⟩
    · rintro ⟨⟨a, ha⟩, hmet⟩
      obtain ⟨b, hb⟩ := (hf a ha).ok_iff.2 hmet
      exact ⟨b, bind_eq_ok_iff.2 ⟨a, ha, hb⟩⟩
  error_iff e := by
    -- The second step only fails where the first has succeeded, that is, where its own
    -- requirements are met.
    rw [bind_eq_error_iff, Breaks.append_iff, ← hx.error_iff, ← hx.ok_iff]
    refine or_congr_right ⟨?_, ?_⟩
    · rintro ⟨a, ha, he⟩
      exact ⟨⟨a, ha⟩, ((hf a ha).error_iff e).1 he⟩
    · rintro ⟨⟨a, ha⟩, he⟩
      exact ⟨a, ha, ((hf a ha).error_iff e).2 he⟩

/-! ### The steps of loading -/

theorem loadHost_eq_ok_iff {a : Net.Address} :
    loadHost vars = .ok a ↔ Net.Address.Writes (filled vars "HOST" "0.0.0.0").toList a := by
  rw [loadHost, getD_setting, ← Net.Address.parse?_eq_some_iff]
  cases Net.Address.parse? (filled vars "HOST" "0.0.0.0") <;> simp

theorem checks_loadHost : Checks vars [.host] (loadHost vars) := by
  refine .single (exists_congr fun a => loadHost_eq_ok_iff) fun hmet e => ?_
  have hhost : loadHost vars = .error .host := by
    rw [loadHost, getD_setting]
    cases hparse : Net.Address.parse? (filled vars "HOST" "0.0.0.0") with
    | none => rfl
    | some a => exact absurd ⟨a, Net.Address.parse?_eq_some_iff.1 hparse⟩ hmet
  rw [hhost]
  constructor
  · rintro ⟨⟩
    exact .host
  · rintro ⟨⟩
    rfl

section Numerals

variable {read : String → Except Numeral.Error α} {default_ : α} {text : String}

/-- A numeral is read from the text of its variable, with the default filled in as a text. -/
theorem numeral_eq (hdefault : read text = .ok default_) :
    numeral vars name read default_ =
      (read (filled vars name text)).mapError (.numeral name) := by
  by_cases hgiven : given vars name = ""
  · rw [numeral, setting_eq_none hgiven, filled, if_pos hgiven, hdefault]
    rfl
  · rw [numeral, setting_eq_some hgiven, filled, if_neg hgiven]
    dsimp only
    cases read (given vars name) <;> rfl

theorem numeral_eq_ok_iff (hdefault : read text = .ok default_) {n : α} :
    numeral vars name read default_ = .ok n ↔ read (filled vars name text) = .ok n := by
  rw [numeral_eq hdefault]
  cases read (filled vars name text) <;> simp [Except.mapError]

theorem numeral_eq_error_iff (hdefault : read text = .ok default_) :
    numeral vars name read default_ = .error e ↔
      ∃ cause, read (filled vars name text) = .error cause ∧ .numeral name cause = e := by
  rw [numeral_eq hdefault]
  cases read (filled vars name text) <;> simp [Except.mapError]

end Numerals

section Naturals

variable {text : String} {bits default_ n : Nat}

theorem natural_eq_ok_iff :
    natural bits value = .ok n ↔ Numeral.Natural value.toList n ∧ n < 2 ^ bits := by
  rw [natural, Numeral.readNat_eq_ok_iff, Nat.pow_eq, Nat.le_sub_one_iff_lt (Nat.two_pow_pos bits)]

theorem loadNatural_eq_ok_iff (hdefault : natural bits text = .ok default_) :
    numeral vars name (natural bits) default_ = .ok n ↔
      Numeral.Natural (filled vars name text).toList n ∧ n < 2 ^ bits :=
  (numeral_eq_ok_iff hdefault).trans natural_eq_ok_iff

theorem checks_natural (hdefault : natural bits text = .ok default_) :
    Checks vars [.natural name text bits] (numeral vars name (natural bits) default_) := by
  refine .single (exists_congr fun n => loadNatural_eq_ok_iff hdefault) fun _ e => ?_
  rw [numeral_eq_error_iff hdefault]
  constructor
  · rintro ⟨cause, hcause, rfl⟩
    exact .natural (Numeral.readNat_eq_error_iff.1 hcause)
  · rintro (_ | h)
    exact ⟨_, Numeral.readNat_eq_error_iff.2 h, rfl⟩

end Naturals

/-! ### The name of the active key -/

/-- The name of the active key, which has no default. -/
def loadActiveKid (vars : Variables) : Except Error String :=
  match setting vars "AUTH_ACTIVE_KID" with
  | some kid => .ok kid
  | none => .error .missingActiveKid

theorem loadActiveKid_eq_ok_iff {kid : String} :
    loadActiveKid vars = .ok kid ↔ kid = given vars "AUTH_ACTIVE_KID" ∧ kid ≠ "" := by
  rw [loadActiveKid, setting_eq_given]
  by_cases hgiven : given vars "AUTH_ACTIVE_KID" = ""
  · rw [if_pos hgiven, hgiven]
    exact iff_of_false nofun fun h => h.2 h.1
  · rw [if_neg hgiven]
    constructor
    · rintro ⟨⟩
      exact ⟨rfl, hgiven⟩
    · rintro ⟨rfl, -⟩
      rfl

theorem checks_loadActiveKid : Checks vars [.activeKid] (loadActiveKid vars) := by
  refine .single ?_ fun hmet e => ?_
  · simp only [loadActiveKid_eq_ok_iff, exists_eq_left]
    rfl
  · rw [loadActiveKid, setting_eq_none (not_not.1 hmet)]
    constructor
    · rintro ⟨⟩
      exact .activeKid
    · rintro ⟨⟩
      rfl

/-! ### The time for which tokens hold -/

theorem integer_eq_ok_iff {z : Int} :
    integer value = .ok z ↔ Numeral.Whole value.toList z ∧ -2 ^ 63 ≤ z ∧ z < 2 ^ 63 := by
  have hbound : ((Nat.pow 2 63 - 1 : Nat) : Int) = 2 ^ 63 - 1 := by decide
  rw [integer, Numeral.readInt_eq_ok_iff, hbound]
  exact and_congr_right fun _ => by omega

/-- Checks the range of the time for which tokens hold. -/
theorem checks_tokenTtlRange {seconds : Int} (h : Numeral.Whole (ttlChars vars) seconds) :
    Checks vars [.tokenTtlRange]
      (if 1 ≤ seconds ∧ seconds ≤ maxTokenTtl then Except.ok seconds
        else .error (.tokenTtlOutOfRange seconds)) := by
  by_cases hrange : 1 ≤ seconds ∧ seconds ≤ maxTokenTtl
  · rw [if_pos hrange]
    exact .single (iff_of_true ⟨_, rfl⟩ ⟨seconds, h, hrange⟩)
      fun hmet => absurd ⟨seconds, h, hrange⟩ hmet
  · rw [if_neg hrange]
    -- The text writes one number only, so there is none of the range that it writes.
    refine .single (iff_of_false nofun fun ⟨z, hz, hmet⟩ => ?_) fun _ e => ?_
    · rw [h.unique hz] at hrange
      exact hrange hmet
    · constructor
      · rintro ⟨⟩
        exact .tokenTtlRange h
      · rintro (_ | _ | _ | _ | hz)
        rw [h.unique hz]

/-- The numeral is read first, and then its range is checked. -/
theorem loadTokenTtl_eq (vars : Variables) :
    loadTokenTtl vars = numeral vars "AUTH_TOKEN_TTL_SECS" integer 3600 >>= fun seconds =>
      if 1 ≤ seconds ∧ seconds ≤ maxTokenTtl then .ok seconds
      else .error (.tokenTtlOutOfRange seconds) := by
  rw [loadTokenTtl]
  cases numeral vars "AUTH_TOKEN_TTL_SECS" integer 3600 <;> rfl

theorem integer_default : integer "3600" = .ok 3600 := rfl

theorem loadInteger_eq_ok_iff {z : Int} :
    numeral vars "AUTH_TOKEN_TTL_SECS" integer 3600 = .ok z ↔
      Numeral.Whole (ttlChars vars) z ∧ -2 ^ 63 ≤ z ∧ z < 2 ^ 63 :=
  (numeral_eq_ok_iff integer_default).trans integer_eq_ok_iff

theorem checks_loadTokenTtl : Checks vars [.tokenTtl, .tokenTtlRange] (loadTokenTtl vars) := by
  have hnumeral : Checks vars [.tokenTtl] (numeral vars "AUTH_TOKEN_TTL_SECS" integer 3600) := by
    refine .single (exists_congr fun z => loadInteger_eq_ok_iff) fun _ e => ?_
    rw [numeral_eq_error_iff integer_default]
    constructor
    · rintro ⟨cause, hcause, rfl⟩
      exact .tokenTtl (Numeral.readInt_eq_error_iff.1 hcause)
    · rintro (_ | _ | _ | h)
      exact ⟨_, Numeral.readInt_eq_error_iff.2 h, rfl⟩
  rw [loadTokenTtl_eq]
  exact hnumeral.bind fun z hz => checks_tokenTtlRange (loadInteger_eq_ok_iff.1 hz).1

theorem loadTokenTtl_eq_ok_iff {z : Int} :
    loadTokenTtl vars = .ok z ↔ Numeral.Whole (ttlChars vars) z ∧ 1 ≤ z ∧ z ≤ 2592000 := by
  rw [loadTokenTtl_eq, bind_eq_ok_iff]
  constructor
  · rintro ⟨seconds, hseconds, h⟩
    split at h
    · next hrange =>
      cases h
      exact ⟨(loadInteger_eq_ok_iff.1 hseconds).1, hrange⟩
    · cases h
  · rintro ⟨hwhole, hrange⟩
    exact ⟨z, loadInteger_eq_ok_iff.2 ⟨hwhole, by omega⟩, if_pos hrange⟩

/-! ### The first account -/

section Seeds

variable {email password : String} {seed seed' : Option SeedAdmin}

theorem Seeds.together (h : Seeds email password seed) : email = "" ↔ password = "" := by
  cases h with
  | none => exact Iff.rfl
  | some hemail hpassword => exact iff_of_false hemail hpassword

theorem Seeds.unique (h : Seeds email password seed) (h' : Seeds email password seed') :
    seed = seed' := by
  cases h with
  | none =>
    rcases h' with _ | h'
    · rfl
    · exact absurd rfl h'
  | some hemail _ =>
    rcases h' with _ | _
    · exact absurd rfl hemail
    · rfl

theorem Seeds.of_some {a : SeedAdmin} (h : Seeds email password (Option.some a)) :
    a.email = email ∧ a.password = password ∧ email ≠ "" ∧ password ≠ "" := by
  cases h with
  | some hemail hpassword => exact ⟨rfl, rfl, hemail, hpassword⟩

/-- Either an email and a password set an account or none, or one of them is missing. -/
theorem loadSeedAdmin_cases (vars : Variables) :
    (∃ seed, Seeds (given vars "SEED_ADMIN_EMAIL") (given vars "SEED_ADMIN_PASSWORD") seed ∧
      loadSeedAdmin vars = .ok seed) ∨
    ¬Requirement.seedAdmin.Met vars ∧ loadSeedAdmin vars = .error .seedIncomplete := by
  by_cases hemail : given vars "SEED_ADMIN_EMAIL" = "" <;>
    by_cases hpassword : given vars "SEED_ADMIN_PASSWORD" = ""
  · refine .inl ⟨none, by rw [hemail, hpassword]; exact .none, ?_⟩
    rw [loadSeedAdmin, setting_eq_none hemail, setting_eq_none hpassword]
  · refine .inr ⟨fun hmet => hpassword (hmet.1 hemail), ?_⟩
    rw [loadSeedAdmin, setting_eq_none hemail, setting_eq_some hpassword]
  · refine .inr ⟨fun hmet => hemail (hmet.2 hpassword), ?_⟩
    rw [loadSeedAdmin, setting_eq_some hemail, setting_eq_none hpassword]
  · refine .inl ⟨_, .some hemail hpassword, ?_⟩
    rw [loadSeedAdmin, setting_eq_some hemail, setting_eq_some hpassword]

theorem loadSeedAdmin_eq_ok_iff :
    loadSeedAdmin vars = .ok seed ↔
      Seeds (given vars "SEED_ADMIN_EMAIL") (given vars "SEED_ADMIN_PASSWORD") seed := by
  rcases loadSeedAdmin_cases vars with ⟨seed', hseed', hload⟩ | ⟨hmet, hload⟩ <;> rw [hload]
  · constructor
    · rintro ⟨⟩
      exact hseed'
    · intro hseed
      rw [hseed.unique hseed']
  · exact iff_of_false nofun fun hseed => hmet hseed.together

theorem checks_loadSeedAdmin : Checks vars [.seedAdmin] (loadSeedAdmin vars) := by
  rcases loadSeedAdmin_cases vars with ⟨seed, hseed, hload⟩ | ⟨hmet, hload⟩ <;> rw [hload]
  · exact .single (iff_of_true ⟨_, rfl⟩ hseed.together) fun hmet => absurd hseed.together hmet
  · refine .single (iff_of_false nofun hmet) fun _ e => ?_
    constructor
    · rintro ⟨⟩
      exact .seedAdmin
    · rintro ⟨⟩
      rfl

end Seeds

/-! ### Loading -/

theorem load_eq (vars : Variables) :
    load vars = do
      let host ← loadHost vars
      let port ← numeral vars "PORT" (natural 16) 3000
      let debugPort ← numeral vars "DEBUG_PORT" (natural 16) 4000
      let activeKid ← loadActiveKid vars
      let tokenTtl ← loadTokenTtl vars
      let leeway ← numeral vars "AUTH_LEEWAY_SECS" (natural 32) 0
      let shutdownTimeout ← numeral vars "SHUTDOWN_TIMEOUT_SECS" (natural 64) 20
      let seedAdmin ← loadSeedAdmin vars
      return {
          host, port, debugPort, activeKid, tokenTtl, leeway, shutdownTimeout, seedAdmin
          keysFolder := filled vars "AUTH_KEYS_FOLDER" "zarf/keys"
          issuer := filled vars "AUTH_ISSUER" "action project"
          build := filled vars "BUILD" "develop" } := by
  simp only [load, loadActiveKid, ← getD_setting]
  cases setting vars "AUTH_ACTIVE_KID" <;> rfl

/-- Loading is decided by the requirements. -/
theorem checks_load : Checks vars requirements (load vars) := by
  rw [load_eq]
  exact checks_loadHost.bind fun _ _ =>
    (checks_natural rfl).bind fun _ _ =>
    (checks_natural rfl).bind fun _ _ =>
    checks_loadActiveKid.bind fun _ _ =>
    checks_loadTokenTtl.bind fun _ _ =>
    (checks_natural rfl).bind fun _ _ =>
    (checks_natural rfl).bind fun _ _ =>
    checks_loadSeedAdmin.bind fun _ _ => .ok _

/-- The configuration that is loaded is the one that the variables mean. -/
theorem load_eq_ok_iff {c : Config} : load vars = .ok c ↔ Meant vars c := by
  rw [load_eq]
  constructor
  · intro h
    obtain ⟨host, hhost, h⟩ := bind_eq_ok_iff.1 h
    obtain ⟨port, hport, h⟩ := bind_eq_ok_iff.1 h
    obtain ⟨debugPort, hdebugPort, h⟩ := bind_eq_ok_iff.1 h
    obtain ⟨kid, hkid, h⟩ := bind_eq_ok_iff.1 h
    obtain ⟨ttl, httl, h⟩ := bind_eq_ok_iff.1 h
    obtain ⟨leeway, hleeway, h⟩ := bind_eq_ok_iff.1 h
    obtain ⟨timeout, htimeout, h⟩ := bind_eq_ok_iff.1 h
    obtain ⟨seed, hseed, h⟩ := bind_eq_ok_iff.1 h
    cases h
    exact
      { host := loadHost_eq_ok_iff.1 hhost
        port := (loadNatural_eq_ok_iff rfl).1 hport
        debugPort := (loadNatural_eq_ok_iff rfl).1 hdebugPort
        keysFolder := by dsimp only
        activeKid := loadActiveKid_eq_ok_iff.1 hkid
        issuer := by dsimp only
        tokenTtl := loadTokenTtl_eq_ok_iff.1 httl
        leeway := (loadNatural_eq_ok_iff rfl).1 hleeway
        shutdownTimeout := (loadNatural_eq_ok_iff rfl).1 htimeout
        build := by dsimp only
        seedAdmin := loadSeedAdmin_eq_ok_iff.1 hseed }
  · intro h
    obtain ⟨host, port, debugPort, keysFolder, kid, issuer, ttl, leeway, timeout, build, seed⟩ := c
    obtain ⟨hhost, hport, hdebugPort, rfl, hkid, rfl, httl, hleeway, htimeout, rfl, hseed⟩ := h
    exact bind_eq_ok_iff.2 ⟨host, loadHost_eq_ok_iff.2 hhost,
      bind_eq_ok_iff.2 ⟨port, (loadNatural_eq_ok_iff rfl).2 hport,
      bind_eq_ok_iff.2 ⟨debugPort, (loadNatural_eq_ok_iff rfl).2 hdebugPort,
      bind_eq_ok_iff.2 ⟨kid, loadActiveKid_eq_ok_iff.2 hkid,
      bind_eq_ok_iff.2 ⟨ttl, loadTokenTtl_eq_ok_iff.2 httl,
      bind_eq_ok_iff.2 ⟨leeway, (loadNatural_eq_ok_iff rfl).2 hleeway,
      bind_eq_ok_iff.2 ⟨timeout, (loadNatural_eq_ok_iff rfl).2 htimeout,
      bind_eq_ok_iff.2 ⟨seed, loadSeedAdmin_eq_ok_iff.2 hseed, rfl⟩⟩⟩⟩⟩⟩⟩⟩

/-- An accepted configuration is proper. -/
theorem proper_of_load {c : Config} (h : load vars = .ok c) : c.Proper := by
  have hmeant := load_eq_ok_iff.1 h
  exact
    { port := Nat.le_sub_one_of_lt hmeant.port.2
      debugPort := Nat.le_sub_one_of_lt hmeant.debugPort.2
      keysFolder := hmeant.keysFolder ▸ trimmed_filled ⟨by decide, by decide⟩
      activeKid := by
        obtain ⟨hkid, hne⟩ := hmeant.activeKid
        rw [hkid] at hne ⊢
        exact trimmed_given hne
      issuer := hmeant.issuer ▸ trimmed_filled ⟨by decide, by decide⟩
      tokenTtl := hmeant.tokenTtl.2
      leeway := Nat.le_sub_one_of_lt hmeant.leeway.2
      shutdownTimeout := Nat.le_sub_one_of_lt hmeant.shutdownTimeout.2
      build := hmeant.build ▸ trimmed_filled ⟨by decide, by decide⟩
      seedAdmin := by
        intro a ha
        obtain ⟨hemail, hpassword, hemail', hpassword'⟩ := (ha ▸ hmeant.seedAdmin).of_some
        rw [hemail, hpassword]
        exact ⟨trimmed_given hemail', trimmed_given hpassword'⟩ }

/-! ### The whole -/

/-- Variables are accepted and refused by the requirements. -/
structure Decided (vars : Variables) : Prop where
  /-- Nothing but the trimmed values of the twelve variables counts. -/
  trimmed : ∀ vars', (∀ name ∈ names, given vars' name = given vars name) → load vars' = load vars
  /-- A variable that is not set and a blank one have the same trimmed value. -/
  blank : ∀ name, given vars name = "" ↔ ∀ value ∈ vars name, Text.isBlankText value = true
  /-- They are accepted exactly if all requirements are met. -/
  accepted_iff : (∃ c, load vars = .ok c) ↔ ∀ r ∈ requirements, r.Met vars
  /-- They are accepted for the configuration that they mean. -/
  ok_iff : ∀ c, load vars = .ok c ↔ Meant vars c
  /-- They are refused with the error of the first requirement that is not met. -/
  error_iff : ∀ e, load vars = .error e ↔ Breaks vars requirements e

theorem decided_load (vars : Variables) : Decided vars where
  trimmed _ h := load_eq_of_given_eq h
  blank _ := given_eq_empty_iff
  accepted_iff := checks_load.ok_iff
  ok_iff _ := load_eq_ok_iff
  error_iff := checks_load.error_iff

/-- Of a port beyond the range and a missing key the port is reported, which is checked first. -/
example :
    load (fun name => if name = "PORT" then some " 65536 " else none) =
      .error (.numeral "PORT" .tooLarge) := by
  rfl

end AccountService.Config
