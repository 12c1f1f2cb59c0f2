import AccountService.Proofs.Auth.Keyring

/-!
# Keys rotate under engines that are in use

After any events a keyring answers as its ledger says, and an engine heeds what was done to its
store before and after it was made. So a key that is removed is gone for all engines at once, and
one that is put in its place is there for all of them.

## Main definitions

* `Auth.Keyring.Follows` — a keyring answers as a ledger says
* `Auth.Engine.Heeds` — an engine heeds changes of its store

## Main statements

* `Auth.Keyring.heeds_of_made` — an engine heeds what was done before and after it was made
* `Auth.Keyring.follows_run` — what any events make of handles and engines
* `Auth.Keyring.not_keyNotFound_of_removed` — an engine of another algorithm does not report a
  removed key
-/

namespace AccountService.Auth

open Keyring (Event)

namespace Keyring

variable {k : Keyring} {l : Ledger} {founders : List String}

/-! ### What a keyring answers -/

/-- A first use of a handle shows nothing new. -/
theorem Tracks.store_withStore (h : Tracks k l founders) (handle other : String) :
    (k.withStore handle).store other = k.store other := by
  obtain ⟨more, hstore⟩ := h.withStore handle
  rw [hstore.store_eq, h.store_eq]

theorem engine?_withStore (k : Keyring) (handle name : String) :
    (k.withStore handle).engine? name = k.engine? name := by
  cases hcell : k.stores.cell? handle with
  | some i => rw [withStore, Shared.ensure_eq_self hcell]
  | none =>
    have hcells : (k.withStore handle).stores.cells = k.stores.cells ++ [.empty] :=
      Shared.cells_ensure hcell
    have hengines : (k.withStore handle).engines = k.engines := rfl
    rw [engine?, engine?, hengines, hcells]
    split
    · next e i _ =>
      -- A store that is still to be made is empty, and so is the one that is made now.
      have hsame : ((k.stores.cells ++ [KeyStore.empty])[i]?).getD .empty =
          (k.stores.cells[i]?).getD .empty := by
        rcases lt_or_ge i k.stores.cells.length with hi | hi
        · rw [List.getElem?_append_left hi]
        · rw [List.getElem?_append_right hi, List.getElem?_eq_none hi, List.getElem?_singleton]
          split <;> rfl
      rw [hsame]
    · rfl

/-- A keyring answers as its ledger says. -/
structure Follows (k : Keyring) (l : Ledger) : Prop where
  /-- Every handle shows all that was done to its store, through whatever handle. -/
  shows : ∀ handle, (k.store handle).Shows (l.history handle)
  /-- A pointer finds what the handle finds. -/
  finds : ∀ (f : Finder) (kid : String), f.lookup k kid = (k.store f.target).lookup kid
  /-- A key file is taken exactly if it holds a key pair. -/
  inserts : ∀ handle kid file,
    (k.insertFile handle kid file).2 = .ok () ↔ ∃ key, Pem.keyPair? file = some key
  /-- Where a key file is not taken, every handle and every engine is as it was. -/
  keeps : ∀ handle kid file err, (k.insertFile handle kid file).2 = .error err →
    (∀ other, (k.insertFile handle kid file).1.store other = k.store other) ∧
      ∀ name, (k.insertFile handle kid file).1.engine? name = k.engine? name
  /-- A removal tells whether the name was bound. -/
  removes : ∀ handle kid,
    (k.remove handle kid).2 = true ↔ ∃ key, Bound (l.history handle) kid key

theorem insertFile_eq_ok_iff {k : Keyring} {handle kid file : String} :
    (k.insertFile handle kid file).2 = .ok () ↔ ∃ key, Pem.keyPair? file = some key := by
  rw [insertFile, KeyStore.insertFile]
  cases Pem.keyPair? file <;> simp

theorem fst_of_insertFile_eq_error {k : Keyring} {handle kid file : String} {err : Error}
    (h : (k.insertFile handle kid file).2 = .error err) :
    (k.insertFile handle kid file).1 = k.withStore handle := by
  rw [insertFile, KeyStore.insertFile] at h ⊢
  cases hfile : Pem.keyPair? file with
  | none => rfl
  | some key =>
    rw [hfile] at h
    cases h

theorem Tracks.follows (h : Tracks k l founders) : k.Follows l where
  shows handle := by
    rw [h.store_eq]
    exact KeyStore.shows_replay _
  finds := fun f kid => f.lookup_eq k kid
  inserts _ _ _ := insertFile_eq_ok_iff
  keeps handle kid file err herror := by
    rw [fst_of_insertFile_eq_error herror]
    exact ⟨h.store_withStore handle, engine?_withStore k handle⟩
  removes handle kid := by
    have hshows := KeyStore.shows_replay (l.history handle)
    rw [← hshows.contains_iff, ← h.store_eq, ← h.store_withStore handle]
    rfl

end Keyring

open Token (Faulty FirstFault NamesKey)

theorem Engine.make_eq_ok {kid : String} {keys : KeyStore} {key : Rsa.KeyPair}
    {algorithm : Algorithm} {scheme : Signature.Scheme} {issuer : Option String} {leeway : Nat}
    (h : algorithm.scheme? = some scheme) (hkey : keys.lookup kid = .ok key) :
    make kid keys algorithm issuer leeway = .ok ⟨kid, algorithm, scheme, issuer, leeway, h⟩ := by
  rw [make]
  split
  · next hnone =>
    rw [h] at hnone
    cases hnone
  · next scheme' hscheme =>
    obtain rfl := Option.some.inj (h.symm.trans hscheme)
    rw [hkey]

/-- An engine heeds what was done to its store: it finds the bindings that the changes left, and
it refuses a token whose key they left unbound, for its key or, if the header of the token has a
fault, for the first fault. -/
structure Engine.Heeds (e : Engine) (keys : KeyStore) (changes : List Change) : Prop where
  shows : keys.Shows changes
  refuses : ∀ (now : Instant) (token kid : String) (t : Token.Parts),
    Token.split? token = some t → NamesKey token kid → (∀ key, ¬ Bound changes kid key) →
    (¬ Faulty e.algorithm t.header → e.validate keys now token = .error (.keyNotFound kid)) ∧
      (Faulty e.algorithm t.header → ∃ err, FirstFault e.algorithm t.header err ∧
        e.validate keys now token = .error err)

theorem Engine.heeds_replay (e : Engine) (changes : List Change) :
    e.Heeds (KeyStore.replay changes) changes where
  shows := KeyStore.shows_replay changes
  refuses now token kid t hsplit hname hunbound := by
    refine validate_of_unbound now hsplit hname (Option.eq_none_iff_forall_ne_some.2 ?_)
    intro key hkey
    exact hunbound key (KeyStore.get?_replay.1 hkey)

namespace Keyring

theorem Tracks.makeEngine_eq_ok {k : Keyring} {l : Ledger} {founders : List String}
    (htracks : Tracks k l founders) {handle kid : String} {key : Rsa.KeyPair}
    {algorithm : Algorithm} {scheme : Signature.Scheme} (h : algorithm.scheme? = some scheme)
    (hkey : Bound (l.history handle) kid key) (name : String) (issuer : Option String)
    (leeway : Nat) :
    (k.makeEngine name handle kid algorithm issuer leeway).2 =
      .ok ⟨kid, algorithm, scheme, issuer, leeway, h⟩ := by
  obtain ⟨i, hcell⟩ := Shared.exists_cell?_ensure k.stores handle KeyStore.empty
  have hcell' : (k.withStore handle).stores.cell? handle = some i := hcell
  have hlookup : ((k.withStore handle).store handle).lookup kid = .ok key := by
    rw [htracks.store_withStore]
    exact ((htracks.follows.shows handle).lookup_bound kid key).2 hkey
  rw [makeEngine]
  simp only [Engine.make_eq_ok h hlookup, hcell']

/-- An engine heeds what was done to its store before and after it was made, through whatever
handle. -/
theorem heeds_of_made {before after : List Event} {name kid : String} {finder : Finder}
    {algorithm : Algorithm} {issuer : Option String} {leeway : Nat} {e : Engine}
    (hmade : ((run before).makeEngine name finder.target kid algorithm issuer leeway).2 = .ok e)
    (hafter : ∀ event ∈ after, ¬ event.Makes name) :
    ∃ keys,
      (run (before ++ .engine name finder kid algorithm issuer leeway :: after)).engine? name =
        some (e, keys) ∧
      e.Heeds keys
        ((Ledger.of (before ++ .engine name finder kid algorithm issuer leeway :: after)).changes
          ((Ledger.of before).storeOf finder.target)) := by
  obtain ⟨founders, hbefore⟩ := exists_tracks before
  obtain ⟨more, htracks, hbuilt⟩ := hbefore.built_makeEngine hmade
  have hengine := htracks.run_built hbuilt hafter
  refine ⟨_, ?_, Engine.heeds_replay e _⟩
  rw [run, Ledger.of, List.foldl_append, List.foldl_append]
  exact hengine

/-- Keys rotate under engines that are in use. After any events every handle shows what was done
to its store, and an engine that was made at any point heeds it, whenever it was done. A token is
validated by what its own key is bound to, and signing fails for want of a key exactly if the
claims are well formed and the active key is not bound or does not sign. -/
theorem follows_run (events : List Event) :
    (run events).Follows (.of events) ∧
    (∀ before after name finder kid algorithm issuer leeway e,
      events = before ++ .engine name finder kid algorithm issuer leeway :: after →
      ((run before).makeEngine name finder.target kid algorithm issuer leeway).2 = .ok e →
      (∀ event ∈ after, ¬ event.Makes name) →
      ∃ keys, (run events).engine? name = some (e, keys) ∧
        e.Heeds keys ((Ledger.of events).changes ((Ledger.of before).storeOf finder.target))) ∧
    (∀ (e : Engine) (keys keys' : KeyStore) (now : Instant) (token : String),
      (∀ kid, NamesKey token kid → keys.get? kid = keys'.get? kid) →
      e.validate keys now token = e.validate keys' now token) ∧
    (∀ (e : Engine) (keys : KeyStore) (salt : Octets) (c : Claims),
      (∃ detail, e.generate keys salt c = .error (.signing detail)) ↔
        c.WellFormed ∧ (keys.get? e.activeKid = none ∨
          ∃ key, keys.get? e.activeKid = some key ∧ ¬ e.Signs key salt c)) ∧
    ∀ (e : Engine) (key : Rsa.KeyPair) (salt : Octets) (c : Claims), key.Genuine →
      (e.Signs key salt c ↔ key.canSign = true) := by
  refine ⟨?_, ?_, fun _ _ _ _ _ => Engine.validate_congr,
    fun _ _ _ _ => Engine.generate_eq_signing_iff, fun _ _ _ _ => Engine.signs_iff_canSign⟩
  · obtain ⟨founders, htracks⟩ := exists_tracks events
    exact htracks.follows
  · rintro before after name finder kid algorithm issuer leeway e rfl hmade hafter
    exact heeds_of_made hmade hafter

/-! ### A key that is rotated out -/

/-- A length below `2 ^ 16` in its shortest form. -/
def lengthOctets (n : Nat) : Octets :=
  if n < 0x80 then [UInt8.ofNat n]
  else if n < 0x100 then [0x81, UInt8.ofNat n]
  else 0x82 :: Octets.ofNat 2 n

/-- Contents in the field of a tag. -/
def fieldOctets (tag : UInt8) (contents : Octets) : Octets :=
  tag :: (lengthOctets contents.length ++ contents)

/-- A natural number in a field of its own. -/
def naturalOctets (n : Nat) : Octets :=
  fieldOctets 0x02 (Octets.ofNat (Rsa.bitLength n / 8 + 1) n)

/-- A text of at most so many lines of 64 characters. -/
def wrap : Nat → List Char → List Char
  | 0, cs => cs
  | n + 1, cs => if (cs.drop 64).isEmpty then cs else cs.take 64 ++ '\n' :: wrap n (cs.drop 64)

/-- The sample key as a bare structure. -/
def sampleStructure : Octets :=
  let k := Rsa.sampleKey
  let inverse := Rsa.power k.prime1 k.prime2 (k.prime1 - 2)
  fieldOctets 0x30 ([0, k.public_.modulus, k.public_.exponent, k.private_, k.prime1, k.prime2,
    k.private_ % (k.prime1 - 1), k.private_ % (k.prime2 - 1), inverse].flatMap naturalOctets)

/-- The key file of the sample key. -/
def sampleFile : String :=
  let label := "RSA PRIVATE KEY".toList
  String.ofList (Pem.beginMark ++ label ++ Pem.dashes ++ '\n' ::
    (wrap 22 (Base64.encode Base64.standard sampleStructure) ++ '\n' ::
      (Pem.endMark ++ label ++ Pem.dashes ++ ['\n'])))

theorem keyPair?_sampleFile : Pem.keyPair? sampleFile = some Rsa.sampleKey := by
  -- The text of the file is taken as a list of characters, which the kernel can read.
  rw [Pem.keyPair?, sampleFile, String.toList_ofList]
  decide +kernel

/-- The sample key is put into a store through a handle. -/
def issued : List Event := [.insert "store" "key" sampleFile]

/-- An engine is made over a pointer to the handle, and then the key is removed through another
handle of the store. -/
def rotated (algorithm : Algorithm) : List Event :=
  issued ++ .engine "engine" (.pointer (.handle "store")) "key" algorithm none 60 ::
    [.share "store" "clone", .remove "clone" "key"]

theorem bound_issued : Bound ((Ledger.of issued).history "store") "key" Rsa.sampleKey :=
  ⟨[], sampleFile, [], rfl, keyPair?_sampleFile, by simp⟩

theorem changes_rotated (algorithm : Algorithm) :
    (Ledger.of (rotated algorithm)).changes ((Ledger.of issued).storeOf "store") =
      [.insert "key" sampleFile, .remove "key"] := by
  simp [Ledger.of, rotated, issued, Ledger.note, Ledger.add, Ledger.history, Ledger.initial]

theorem unbound_rotated (algorithm : Algorithm) (key : Rsa.KeyPair) :
    ¬ Bound ((Ledger.of (rotated algorithm)).changes ((Ledger.of issued).storeOf "store")) "key"
      key := by
  have hsplit : [Change.insert "key" sampleFile, .remove "key"] =
      [.insert "key" sampleFile] ++ [.remove "key"] := rfl
  rw [changes_rotated, hsplit, bound_append_iff]
  rintro (⟨file, h, -⟩ | ⟨h, -⟩)
  · cases h
  · exact h rfl

/-- The engine that is made over the store of the sample key. -/
theorem makeEngine_issued {algorithm : Algorithm} {scheme : Signature.Scheme}
    (h : algorithm.scheme? = some scheme) :
    ((run issued).makeEngine "engine" "store" "key" algorithm none 60).2 =
      .ok ⟨"key", algorithm, scheme, none, 60, h⟩ := by
  obtain ⟨founders, htracks⟩ := exists_tracks issued
  exact htracks.makeEngine_eq_ok h bound_issued "engine" none 60

/-- What is done after the engine was made does not make another one of its name. -/
theorem not_makes_of_mem {event : Event}
    (h : event ∈ [Event.share "store" "clone", .remove "clone" "key"]) :
    ¬ event.Makes "engine" := by
  simp only [List.mem_cons, List.not_mem_nil, or_false] at h
  rcases h with rfl | rfl <;> exact id

/-- The sample token has a header without a fault, which names the sample key. -/
theorem exists_sampleToken :
    ∃ token t, (Engine.sample none).generate Engine.sampleKeys [] Engine.sampleClaims = .ok token ∧
      Token.split? token = some t ∧
      (Engine.sample none).checkHeader t.header =
        .ok ("key", Token.headerNodes "RS256" "key") := by
  obtain ⟨token, htoken⟩ := Engine.exists_generate_sample
  obtain ⟨payload, signature, key, hsplit, -⟩ := Engine.accept_generate_stages
    Engine.representable_sampleClaims (fun h => by cases h) htoken rfl rfl
  have hheader : (Engine.sample none).checkHeader (Engine.sample none).headerOf =
      .ok ("key", Token.headerNodes "RS256" "key") := Engine.checkHeader_headerOf rfl
  exact ⟨token, _, htoken, hsplit, hheader⟩

/-- An engine that was made before a key was removed refuses the tokens of the key from then on. -/
theorem follows_run_rotated :
    ∃ token e keys,
      (Engine.sample none).generate Engine.sampleKeys [] Engine.sampleClaims = .ok token ∧
      (run (rotated .rs256)).engine? "engine" = some (e, keys) ∧
      e.validate keys (.ofSeconds 1700000000) token = .error (.keyNotFound "key") := by
  obtain ⟨token, t, htoken, hsplit, hheader⟩ := exists_sampleToken
  obtain ⟨keys, hengine, hheeds⟩ := (follows_run (rotated .rs256)).2.1 issued _ "engine" _ "key"
    .rs256 none 60 _ rfl (makeEngine_issued rfl) fun event => not_makes_of_mem
  have hname := Engine.namesKey_of_checkHeader hsplit hheader
  refine ⟨token, _, keys, htoken, hengine, ?_⟩
  refine (hheeds.refuses _ token "key" t hsplit hname (unbound_rotated .rs256)).1 ?_
  exact Engine.not_faulty_of_checkHeader hheader

/-- An engine of another algorithm does not look for the key of a token at all, so a removed key
is not what it reports. -/
theorem not_keyNotFound_of_removed :
    ∃ token e keys,
      (Engine.sample none).generate Engine.sampleKeys [] Engine.sampleClaims = .ok token ∧
      NamesKey token "key" ∧ (run (rotated .rs384)).engine? "engine" = some (e, keys) ∧
      keys.lookup "key" = .error (.keyNotFound "key") ∧
      e.validate keys (.ofSeconds 1700000000) token =
        .error (.algorithmMismatch "RS384" "RS256") := by
  obtain ⟨token, t, htoken, hsplit, hheader⟩ := exists_sampleToken
  have hmade : ((run issued).makeEngine "engine" (Finder.pointer (.handle "store")).target "key"
    .rs384 none 60).2 = .ok _ := makeEngine_issued rfl
  obtain ⟨keys, hengine, hheeds⟩ := heeds_of_made hmade fun event => not_makes_of_mem
  obtain ⟨octets, hdecode, hmembers, hkid, halg⟩ := Engine.checkHeader_eq_ok_iff.1 hheader
  have hfault : FirstFault .rs384 t.header (.algorithmMismatch "RS384" "RS256") :=
    .otherAlgorithm ((Token.reads_iff hdecode).2 hmembers) hkid halg (by decide)
  refine ⟨token, _, keys, htoken, Engine.namesKey_of_checkHeader hsplit hheader, hengine, ?_, ?_⟩
  · exact (hheeds.shows.lookup_unbound "key").2 (unbound_rotated .rs384)
  · exact Engine.validate_of_firstFault keys _ hsplit hfault

end Keyring

end AccountService.Auth
