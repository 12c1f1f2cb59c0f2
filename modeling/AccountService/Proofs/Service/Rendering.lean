import AccountService.Proofs.Net.Canonical
import AccountService.Proofs.Service.Acceptance

/-!
# Configurations written out

A configuration can be written out in variables in many ways: a number may have a plus sign and zeros
in front, any value may have blanks around it, and a variable may be left out or blank where the
field has its default. Whichever way is taken, the configuration is loaded again, since what each
text means is the field that it was written for.

## Main definitions

* `Config.SetTo`, `Config.Absent` — a variable that is set to a text up to blanks, or to nothing
* `Config.Written` — variables that a configuration is written out in
* `Config.plain` — the plainest of them

## Main statements

* `Config.meant_of_written` — variables mean the configuration that is written out in them
* `Config.loaded_of_proper` — a proper configuration is written out and loaded again
-/

namespace AccountService.Config

/-! ### Variables that write a configuration -/

/-- A variable is set to a text; blanks may stand around it. -/
def SetTo (vars : Variables) (name : String) (text : List Char) : Prop :=
  ∃ value before after, vars name = some value ∧ value.toList = before ++ text ++ after ∧
    (∀ c ∈ before, Text.isBlank c = true) ∧ ∀ c ∈ after, Text.isBlank c = true

/-- A variable is left out or blank. -/
def Absent (vars : Variables) (name : String) : Prop :=
  ∀ value ∈ vars name, Text.isBlankText value = true

/-- The numerals of a number: a plus sign and zeros may stand in front of its shortest one. -/
inductive NumeralOf (n : Nat) : List Char → Prop where
  | digits (zeros : Nat) : NumeralOf n (List.replicate zeros '0' ++ Numeral.ofNat n)
  | plus (zeros : Nat) : NumeralOf n ('+' :: (List.replicate zeros '0' ++ Numeral.ofNat n))

/-- A variable writes a field: it is set to one of the field's texts, or it is absent and the field
has its default. -/
def Renders (vars : Variables) (name : String) (texts : List Char → Prop) (isDefault : Prop) : Prop :=
  (∃ text, texts text ∧ SetTo vars name text) ∨ isDefault ∧ Absent vars name

/-- Variables that a configuration is written out in. -/
structure Written (vars : Variables) (c : Config) : Prop where
  host : Renders vars "HOST" (· = c.host.chars) (c.host = .v4 0 0 0 0)
  port : Renders vars "PORT" (NumeralOf c.port) (c.port = 3000)
  debugPort : Renders vars "DEBUG_PORT" (NumeralOf c.debugPort) (c.debugPort = 4000)
  keysFolder : Renders vars "AUTH_KEYS_FOLDER" (· = c.keysFolder.toList)
    (c.keysFolder = defaultKeysFolder)
  activeKid : SetTo vars "AUTH_ACTIVE_KID" c.activeKid.toList
  issuer : Renders vars "AUTH_ISSUER" (· = c.issuer.toList) (c.issuer = "action project")
  tokenTtl : Renders vars "AUTH_TOKEN_TTL_SECS"
    (fun text => ∃ n : Nat, (n : Int) = c.tokenTtl ∧ NumeralOf n text) (c.tokenTtl = 3600)
  leeway : Renders vars "AUTH_LEEWAY_SECS" (NumeralOf c.leeway) (c.leeway = 0)
  shutdownTimeout : Renders vars "SHUTDOWN_TIMEOUT_SECS" (NumeralOf c.shutdownTimeout)
    (c.shutdownTimeout = 20)
  build : Renders vars "BUILD" (· = c.build.toList) (c.build = "develop")
  seedAdmin :
    match c.seedAdmin with
    | none => Absent vars "SEED_ADMIN_EMAIL" ∧ Absent vars "SEED_ADMIN_PASSWORD"
    | some a => SetTo vars "SEED_ADMIN_EMAIL" a.email.toList ∧
        SetTo vars "SEED_ADMIN_PASSWORD" a.password.toList

/-- A number in its shortest numeral. -/
def numeralText (n : Nat) : String := String.ofList (Numeral.ofNat n)

/-- The plainest variables that a configuration is written out in: every field in its shortest text,
and nothing around it. -/
def plain (c : Config) : Variables
  | "HOST" => some c.host.text
  | "PORT" => some (numeralText c.port)
  | "DEBUG_PORT" => some (numeralText c.debugPort)
  | "AUTH_KEYS_FOLDER" => some c.keysFolder
  | "AUTH_ACTIVE_KID" => some c.activeKid
  | "AUTH_ISSUER" => some c.issuer
  | "AUTH_TOKEN_TTL_SECS" => some (numeralText c.tokenTtl.toNat)
  | "AUTH_LEEWAY_SECS" => some (numeralText c.leeway)
  | "SHUTDOWN_TIMEOUT_SECS" => some (numeralText c.shutdownTimeout)
  | "BUILD" => some c.build
  | "SEED_ADMIN_EMAIL" => c.seedAdmin.map (·.email)
  | "SEED_ADMIN_PASSWORD" => c.seedAdmin.map (·.password)
  | _ => none

variable {vars : Variables} {name default_ : String} {text : List Char} {texts : List Char → Prop}
  {isDefault : Prop} {n bits : Nat} {c : Config}

/-! ### What is read of a text -/

/-- A text that blanks can stand around without being taken for a part of it. -/
structure Bare (text : List Char) : Prop where
  ne_nil : text ≠ []
  trim_eq : Text.trimChars text = text

theorem bare_of_trimmed {s : String} (h : Text.Trimmed s) : Bare s.toList where
  ne_nil := by
    intro hnil
    have hblank := h.not_blank
    rw [Text.isBlankText, hnil] at hblank
    cases hblank
  trim_eq := by rw [← Text.toList_trim, h.trim_eq]

theorem bare_of_not_blank (hne : text ≠ []) (h : ∀ c ∈ text, Text.isBlank c = false) : Bare text where
  ne_nil := hne
  trim_eq := Text.trimWith_eq_self (fun c hc => h c (List.mem_of_head? hc))
    fun c hc => h c (List.mem_of_getLast? hc)

theorem bare_chars (a : Net.Address) : Bare a.chars :=
  bare_of_not_blank (Net.Address.writes_chars a).ne_nil
    fun _ hc => (Net.Address.writes_chars a).isBlank_of_mem hc

theorem NumeralOf.natural (h : NumeralOf n text) : Numeral.Natural text n := by
  cases h with
  | digits zeros => exact .digits (Numeral.decimal_zeros_ofNat zeros n)
  | plus zeros => exact .plus (Numeral.decimal_zeros_ofNat zeros n)

theorem NumeralOf.bare (h : NumeralOf n text) : Bare text := by
  have hdecimal (zeros : Nat) : ∀ c ∈ List.replicate zeros '0' ++ Numeral.ofNat n,
      Text.isBlank c = false :=
    fun c hc => Net.Address.isBlank_of_isDigit ((Numeral.decimal_zeros_ofNat zeros n).isDigit c hc)
  cases h with
  | digits zeros => exact bare_of_not_blank (Numeral.decimal_zeros_ofNat zeros n).ne_nil (hdecimal zeros)
  | plus zeros =>
    exact bare_of_not_blank (List.cons_ne_nil _ _) (List.forall_mem_cons.2 ⟨rfl, hdecimal zeros⟩)

/-- Blanks around a text do not count. -/
theorem toList_given_of_setTo (h : SetTo vars name text) (htext : Bare text) :
    (given vars name).toList = text := by
  obtain ⟨value, before, after, hvalue, hchars, hbefore, hafter⟩ := h
  rw [given, hvalue, Option.getD_some, Text.toList_trim, hchars, Text.trimChars,
    Text.trimWith_append_right hafter, Text.trimWith_append_left hbefore]
  exact htext.trim_eq

theorem given_ne_empty_of_setTo (h : SetTo vars name text) (htext : Bare text) :
    given vars name ≠ "" := by
  intro hempty
  have hnil := toList_given_of_setTo h htext
  rw [hempty] at hnil
  exact htext.ne_nil hnil.symm

/-- With the default filled in, a variable has one of the texts of its field. -/
theorem texts_filled (default_ : String) (h : Renders vars name texts isDefault)
    (hbare : ∀ text, texts text → Bare text) (hdefault : isDefault → texts default_.toList) :
    texts (filled vars name default_).toList := by
  rcases h with ⟨text, htext, hset⟩ | ⟨hfield, habsent⟩
  · rw [filled, if_neg (given_ne_empty_of_setTo hset (hbare text htext)),
      toList_given_of_setTo hset (hbare text htext)]
    exact htext
  · rw [filled, if_pos (given_eq_empty_iff.2 habsent)]
    exact hdefault hfield

theorem natural_of_renders (h : Renders vars name (NumeralOf n) isDefault)
    (hdefault : isDefault → NumeralOf n default_.toList) (hn : n ≤ Nat.pow 2 bits - 1) :
    Numeral.Natural (filled vars name default_).toList n ∧ n < 2 ^ bits :=
  ⟨(texts_filled default_ h (fun _ htext => htext.bare) hdefault).natural,
    Nat.lt_of_le_sub_one (Nat.two_pow_pos bits) hn⟩

theorem eq_filled_of_renders {s : String}
    (h : Renders vars name (· = s.toList) (s = default_)) (hs : Text.Trimmed s) :
    s = filled vars name default_ := by
  have hchars := texts_filled default_ h (fun _ htext => htext ▸ bare_of_trimmed hs)
    fun hdefault => by rw [hdefault]
  exact (String.toList_inj.1 hchars).symm

theorem eq_given_of_setTo {s : String} (h : SetTo vars name s.toList) (hs : Text.Trimmed s) :
    s = given vars name ∧ s ≠ "" := by
  have hgiven := String.toList_inj.1 (toList_given_of_setTo h (bare_of_trimmed hs))
  exact ⟨hgiven.symm, hgiven ▸ given_ne_empty_of_setTo h (bare_of_trimmed hs)⟩

/-- Variables mean the configuration that is written out in them. -/
theorem meant_of_written (hc : c.Proper) (h : Written vars c) : Meant vars c where
  host := by
    have hchars := texts_filled "0.0.0.0" h.host
      (fun _ htext => htext ▸ bare_chars c.host) fun hdefault => by rw [hdefault]; rfl
    rw [hchars]
    exact Net.Address.writes_chars c.host
  port := natural_of_renders h.port (fun hdefault => hdefault ▸ .digits 0) hc.port
  debugPort := natural_of_renders h.debugPort (fun hdefault => hdefault ▸ .digits 0) hc.debugPort
  keysFolder := eq_filled_of_renders h.keysFolder hc.keysFolder
  activeKid := eq_given_of_setTo h.activeKid hc.activeKid
  issuer := eq_filled_of_renders h.issuer hc.issuer
  tokenTtl := by
    obtain ⟨n, hn, htext⟩ := texts_filled "3600" h.tokenTtl
      (fun _ ⟨_, _, htext⟩ => htext.bare) fun hdefault => ⟨3600, hdefault.symm, .digits 0⟩
    rw [← hn]
    exact ⟨.natural htext.natural, hn ▸ hc.tokenTtl⟩
  leeway := natural_of_renders h.leeway (fun hdefault => hdefault ▸ .digits 0) hc.leeway
  shutdownTimeout :=
    natural_of_renders h.shutdownTimeout (fun hdefault => hdefault ▸ .digits 0) hc.shutdownTimeout
  build := eq_filled_of_renders h.build hc.build
  seedAdmin := by
    have hseed := h.seedAdmin
    cases hadmin : c.seedAdmin with
    | none =>
      rw [hadmin] at hseed
      rw [given_eq_empty_iff.2 hseed.1, given_eq_empty_iff.2 hseed.2]
      exact .none
    | some a =>
      rw [hadmin] at hseed
      obtain ⟨hemail, hpassword⟩ := hc.seedAdmin a hadmin
      obtain ⟨hemail, hemail'⟩ := eq_given_of_setTo hseed.1 hemail
      obtain ⟨hpassword, hpassword'⟩ := eq_given_of_setTo hseed.2 hpassword
      rw [← hemail, ← hpassword]
      exact .some hemail' hpassword'

/-! ### The plainest rendering -/

theorem setTo_of_eq_some {s : String} (h : vars name = some s) : SetTo vars name s.toList :=
  ⟨s, [], [], h, by simp, by simp, by simp⟩

theorem setTo_plain_numeral (h : vars name = some (numeralText n)) :
    ∃ text, NumeralOf n text ∧ SetTo vars name text :=
  ⟨_, .digits 0, by
    have hset := setTo_of_eq_some h
    rwa [numeralText, String.toList_ofList] at hset⟩

/-- A configuration is written out in the plainest variables. -/
theorem written_plain (hc : c.Proper) : Written c.plain c where
  host := .inl ⟨_, rfl, by
    have hset : SetTo c.plain "HOST" c.host.text.toList := setTo_of_eq_some rfl
    rwa [Net.Address.text, String.toList_ofList] at hset⟩
  port := .inl (setTo_plain_numeral rfl)
  debugPort := .inl (setTo_plain_numeral rfl)
  keysFolder := .inl ⟨_, rfl, setTo_of_eq_some rfl⟩
  activeKid := setTo_of_eq_some rfl
  issuer := .inl ⟨_, rfl, setTo_of_eq_some rfl⟩
  tokenTtl := by
    have hnumeral : ∃ text, NumeralOf c.tokenTtl.toNat text ∧
        SetTo c.plain "AUTH_TOKEN_TTL_SECS" text := setTo_plain_numeral rfl
    obtain ⟨text, htext, hset⟩ := hnumeral
    have hpos := hc.tokenTtl.1
    exact .inl ⟨text, ⟨_, Int.toNat_of_nonneg (by omega), htext⟩, hset⟩
  leeway := .inl (setTo_plain_numeral rfl)
  shutdownTimeout := .inl (setTo_plain_numeral rfl)
  build := .inl ⟨_, rfl, setTo_of_eq_some rfl⟩
  seedAdmin := by
    have hemail : c.plain "SEED_ADMIN_EMAIL" = c.seedAdmin.map (·.email) := rfl
    have hpassword : c.plain "SEED_ADMIN_PASSWORD" = c.seedAdmin.map (·.password) := rfl
    cases hadmin : c.seedAdmin with
    | none =>
      rw [hadmin, Option.map_none] at hemail hpassword
      exact ⟨by simp [Absent, hemail], by simp [Absent, hpassword]⟩
    | some a =>
      rw [hadmin, Option.map_some] at hemail hpassword
      exact ⟨setTo_of_eq_some hemail, setTo_of_eq_some hpassword⟩

/-! ### The round trip -/

/-- A proper configuration can be written out, and is loaded again however it is. -/
theorem loaded_of_proper (hc : c.Proper) :
    Written c.plain c ∧ ∀ vars, Written vars c → load vars = .ok c :=
  ⟨written_plain hc, fun _ h => load_eq_ok_iff.2 (meant_of_written hc h)⟩

/-- A configuration with octets in disguise, the largest numbers, and defaults. -/
def sample : Config where
  host := .v6 #v[0, 0, 0, 0, 0, 0xFFFF, 0xC000, 0x0201]
  port := 65535
  debugPort := 4000
  keysFolder := "zarf/keys"
  activeKid := "k 1"
  issuer := "café"
  tokenTtl := 2592000
  leeway := 0
  shutdownTimeout := 18446744073709551615
  build := "develop"
  seedAdmin := some ⟨"admin@example.com", "gophers"⟩

/-- It is written out with signs, zeros and blanks, and its defaults are left out or blank. -/
def sampleVariables : Variables
  | "HOST" => some "\u3000::ffff:192.0.2.1\n"
  | "PORT" => some "+65535"
  | "AUTH_KEYS_FOLDER" => some " \t"
  | "AUTH_ACTIVE_KID" => some "k 1 "
  | "AUTH_ISSUER" => some " café"
  | "AUTH_TOKEN_TTL_SECS" => some "+002592000"
  | "AUTH_LEEWAY_SECS" => some ""
  | "SHUTDOWN_TIMEOUT_SECS" => some "0018446744073709551615 "
  | "SEED_ADMIN_EMAIL" => some "admin@example.com"
  | "SEED_ADMIN_PASSWORD" => some "gophers\u00A0"
  | _ => none

theorem setTo_of_all {value : String} (before after : List Char) (hvalue : vars name = some value)
    (hchars : value.toList = before ++ text ++ after) (hbefore : before.all Text.isBlank = true)
    (hafter : after.all Text.isBlank = true) : SetTo vars name text :=
  ⟨value, before, after, hvalue, hchars, List.all_eq_true.1 hbefore, List.all_eq_true.1 hafter⟩

theorem loaded_of_proper_sample :
    sample.Proper ∧ Written sampleVariables sample ∧ load sampleVariables = .ok sample := by
  have hproper : sample.Proper :=
    { port := by decide
      debugPort := by decide
      keysFolder := ⟨by decide, by decide⟩
      activeKid := ⟨by decide, by decide⟩
      issuer := ⟨by decide, by decide⟩
      tokenTtl := by decide
      leeway := by decide
      shutdownTimeout := by decide
      build := ⟨by decide, by decide⟩
      seedAdmin := by
        rintro a ⟨⟩
        exact ⟨⟨by decide, by decide⟩, ⟨by decide, by decide⟩⟩ }
  have hwritten : Written sampleVariables sample :=
    { host := .inl ⟨_, rfl, setTo_of_all ['\u3000'] ['\n'] rfl (by decide) rfl rfl⟩
      port := .inl ⟨_, .plus 0, setTo_of_all [] [] rfl (by decide) rfl rfl⟩
      debugPort := .inr ⟨rfl, by rintro _ ⟨⟩⟩
      keysFolder := .inr ⟨rfl, by rintro _ ⟨⟩; decide⟩
      activeKid := setTo_of_all [] [' '] rfl (by decide) rfl rfl
      issuer := .inl ⟨_, rfl, setTo_of_all [' '] [] rfl (by decide) rfl rfl⟩
      tokenTtl := .inl ⟨_, ⟨2592000, rfl, .plus 2⟩, setTo_of_all [] [] rfl (by decide) rfl rfl⟩
      leeway := .inr ⟨rfl, by rintro _ ⟨⟩; decide⟩
      shutdownTimeout := .inl ⟨_, .digits 2, setTo_of_all [] [' '] rfl (by decide) rfl rfl⟩
      build := .inr ⟨rfl, by rintro _ ⟨⟩⟩
      seedAdmin := ⟨setTo_of_all [] [] rfl (by decide) rfl rfl,
        setTo_of_all [] ['\u00A0'] rfl (by decide) rfl rfl⟩ }
  exact ⟨hproper, hwritten, (loaded_of_proper hproper).2 sampleVariables hwritten⟩

end AccountService.Config
