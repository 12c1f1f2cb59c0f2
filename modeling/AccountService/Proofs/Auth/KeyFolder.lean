import AccountService.Auth.KeyFolder
import AccountService.Proofs.Auth.Rotation
import Mathlib.Data.List.Perm.Basic

/-!
# What comes of a key folder

The entries of a folder are listed in no particular order, and a name stands in the listing once.
Then the names of the key files tell their keys apart, every key file binds a name that is still
free, and the store does not depend on the order of the listing.

## Main definitions

* `KeyFolder.Entry.isKeyFile`, `KeyFolder.Entry.Holds` — the entries that count, and their keys
* `KeyFolder.Concerns` — the entry that an error is about
* `KeyFolder.Exact` — a listing is loaded exactly, in whatever order

## Main statements

* `KeyFolder.kidOf?_eq_some_iff` — the name of a key is what stands before `.pem`
* `KeyFolder.addFiles_eq_error` — loading fails at the first key file without a key
* `KeyFolder.bindings_addFiles` — loading binds the key of every key file
* `KeyFolder.exact_load` — a listing of distinct names is loaded exactly
-/

namespace AccountService.KeyFolder

open Auth

/-! ### Names of key files -/

section Names

variable {name stem extension : List Char}

/-- What stands in front of the extension, read from its end: it begins with the last dot. -/
theorem reverse_front (name : List Char) :
    (name.take (name.length - (name.reverse.takeWhile (· != '.')).reverse.length)).reverse =
      name.reverse.dropWhile (· != '.') := by
  rw [List.reverse_take, List.length_reverse, Nat.sub_sub_self, Text.drop_length_takeWhile]
  simpa using (List.takeWhile_sublist (l := name.reverse) (· != '.')).length_le

theorem cutExtension_append (hext : '.' ∉ extension) (hstem : stem ≠ [])
    (hdots : stem ++ '.' :: extension ≠ "..".toList) :
    cutExtension (stem ++ '.' :: extension) = (stem, some extension) := by
  have hfront : ∀ c ∈ extension.reverse, (c != '.') = true := by
    intro c hc
    exact bne_iff_ne.2 fun h => hext (h ▸ List.mem_reverse.1 hc)
  have hrest : ∀ c ∈ ('.' :: stem.reverse).head?, (c != '.') = false := by simp
  obtain ⟨htake, hdrop⟩ := Text.cut_append hfront hrest
  have hreverse : (stem ++ '.' :: extension).reverse = extension.reverse ++ '.' :: stem.reverse := by
    simp
  rw [cutExtension]
  simp only [reverse_front]
  rw [hreverse, htake, hdrop]
  simp only [List.isEmpty_iff, List.reverse_eq_nil_iff, hstem, hdots, Bool.or_eq_true,
    decide_eq_true_eq, or_self, if_false, List.reverse_reverse]

theorem eq_of_cutExtension (h : cutExtension name = (stem, some extension)) :
    name = stem ++ '.' :: extension ∧ '.' ∉ extension ∧ stem ≠ [] ∧ name ≠ "..".toList := by
  rw [cutExtension] at h
  simp only [reverse_front] at h
  split at h
  · cases h
  · next c rest hdrop =>
    split at h
    · cases h
    · next hproper =>
      simp only [Bool.or_eq_true, List.isEmpty_iff, decide_eq_true_eq, not_or] at hproper
      obtain ⟨rfl, hext⟩ := Prod.mk.inj h
      obtain rfl := Option.some.inj hext
      -- Read from its end, the name is the extension, a dot, and the rest of what was dropped.
      have hc : c = '.' := by simpa [hdrop] using List.head?_dropWhile_not (· != '.') name.reverse
      have hname := congrArg List.reverse
        (List.takeWhile_append_dropWhile (p := (· != '.')) (l := name.reverse))
      rw [hdrop, hc, List.reverse_append, List.reverse_cons, List.reverse_reverse,
        List.append_assoc, List.singleton_append] at hname
      refine ⟨hname.symm, fun hmem => ?_, mt List.reverse_eq_nil_iff.1 hproper.1, hproper.2⟩
      simpa using List.mem_takeWhile_imp (List.mem_reverse.1 hmem)

/-- A name is cut at its last dot, if something stands before that. -/
theorem cutExtension_eq_some_iff :
    cutExtension name = (stem, some extension) ↔
      name = stem ++ '.' :: extension ∧ '.' ∉ extension ∧ stem ≠ [] ∧ name ≠ "..".toList := by
  refine ⟨eq_of_cutExtension, ?_⟩
  rintro ⟨rfl, hext, hstem, hdots⟩
  exact cutExtension_append hext hstem hdots

/-- The name of a key is what stands before `.pem`, if anything does. -/
theorem kidOf?_eq_some_iff {name kid : String} :
    kidOf? name = some kid ↔ name = kid ++ ".pem" ∧ kid ≠ "" := by
  have hiff : kidOf? name = some kid ↔
      cutExtension name.toList = (kid.toList, some "pem".toList) := by
    rw [kidOf?]
    split
    · next stem extension h =>
      have hstem : String.ofList stem = kid ↔ stem = kid.toList := by
        rw [← String.toList_inj, String.toList_ofList]
      rw [h, Option.ite_none_right_eq_some, Option.some.injEq, Prod.mk.injEq, Option.some.injEq,
        hstem, and_comm]
    · next stem h =>
      rw [h]
      simp
  rw [hiff, cutExtension_eq_some_iff]
  constructor
  · rintro ⟨hname, -, hkid, -⟩
    exact ⟨String.ext (by rw [hname, String.toList_append]; rfl), by simpa using hkid⟩
  · rintro ⟨rfl, hkid⟩
    refine ⟨by rw [String.toList_append]; rfl, by decide, by simpa using hkid, fun h => ?_⟩
    -- The last characters differ.
    have hlast := congrArg List.getLast? h
    simp at hlast

example : [".pem", "..pem", "a.b.pem", "x.PEM", "pem"].map kidOf? =
    [none, some ".", some "a.b", none, none] := by decide

end Names

/-! ### Entries that count -/

/-- Whether an entry is a key file: a file whose name ends in `.pem` and has something in front of
that. -/
def Entry.isKeyFile (e : Entry) : Bool :=
  match e.item with
  | .file _ => e.name != ".pem" && ".pem".toList.isSuffixOf e.name.toList
  | .folder => false

/-- An entry is a file whose contents are a text that is read as a key pair. -/
def Entry.Holds (e : Entry) (key : Rsa.KeyPair) : Prop :=
  ∃ text, e.item = .file (Octets.ofText text) ∧ Pem.keyPair? text = some key

/-- The key pair in a key file. -/
def KeyFile.key? (f : KeyFile) : Option Rsa.KeyPair := f.contents.toText?.bind Pem.keyPair?

/-- What a key file without a key pair is refused with. -/
def KeyFile.fault (folder : String) (f : KeyFile) : Error :=
  match f.contents.toText? with
  | none =>
    .keyStore ("reading " ++ pathIn folder f.name ++ ": stream did not contain valid UTF-8")
  | some _ => .keyParse f.kid "no usable RSA private key"

section Entries

variable {e : Entry} {f : KeyFile} {key : Rsa.KeyPair} {entries : List Entry}

theorem keyFile?_eq_some_iff :
    e.keyFile? = some f ↔
      f.kid ≠ "" ∧ f.name = f.kid ++ ".pem" ∧ e = ⟨f.name, .file f.contents⟩ := by
  obtain ⟨name, item⟩ := e
  obtain ⟨kid, name', contents'⟩ := f
  rw [Entry.keyFile?]
  cases item with
  | folder => simp
  | file contents =>
    simp only [Option.map_eq_some_iff, kidOf?_eq_some_iff, KeyFile.mk.injEq, Entry.mk.injEq,
      Item.file.injEq]
    constructor
    · rintro ⟨kid, ⟨rfl, hkid⟩, rfl, rfl, rfl⟩
      exact ⟨hkid, rfl, rfl, rfl⟩
    · rintro ⟨hkid, rfl, rfl, rfl⟩
      exact ⟨kid, ⟨rfl, hkid⟩, rfl, rfl, rfl⟩

theorem isSuffix_pem_iff {name : String} :
    ".pem".toList <:+ name.toList ↔ ∃ kid, name = kid ++ ".pem" := by
  constructor
  · rintro ⟨stem, hstem⟩
    refine ⟨String.ofList stem, String.ext ?_⟩
    rw [String.toList_append, String.toList_ofList, hstem]
  · rintro ⟨kid, rfl⟩
    rw [String.toList_append]
    exact List.suffix_append _ _

theorem isKeyFile_iff : e.isKeyFile = true ↔ ∃ f, e.keyFile? = some f := by
  obtain ⟨name, item⟩ := e
  simp only [keyFile?_eq_some_iff, Entry.isKeyFile]
  cases item with
  | folder => simp
  | file contents =>
    simp only [Bool.and_eq_true, bne_iff_ne, List.isSuffixOf_iff_suffix, isSuffix_pem_iff,
      Entry.mk.injEq, Item.file.injEq]
    constructor
    · rintro ⟨hname, kid, rfl⟩
      refine ⟨⟨kid, kid ++ ".pem", contents⟩, fun (hkid : kid = "") => hname ?_, rfl, rfl, rfl⟩
      rw [hkid]
      rfl
    · rintro ⟨f, hkid, hname, rfl, -⟩
      refine ⟨fun hpem => hkid ?_, f.kid, hname⟩
      have hempty : f.kid ++ ".pem" = "" ++ ".pem" := hname.symm.trans hpem
      exact (String.append_left_inj _).1 hempty

/-- A key file holds what is read of its contents. -/
theorem holds_iff (h : e.keyFile? = some f) : e.Holds key ↔ f.key? = some key := by
  obtain ⟨-, -, rfl⟩ := keyFile?_eq_some_iff.1 h
  simp only [Entry.Holds, KeyFile.key?, Option.bind_eq_some_iff, Octets.toText?_eq_some_iff,
    Item.file.injEq]

theorem mem_keyFiles : f ∈ keyFiles entries ↔ ∃ e ∈ entries, e.keyFile? = some f :=
  List.mem_filterMap

/-- Every key file holds a key pair if every entry that counts does. -/
theorem forall_mem_keyFiles_iff :
    (∀ f ∈ keyFiles entries, ∃ key, f.key? = some key) ↔
      ∀ e ∈ entries, e.isKeyFile = true → ∃ key, e.Holds key := by
  constructor
  · intro h e he hfile
    obtain ⟨f, hf⟩ := isKeyFile_iff.1 hfile
    obtain ⟨key, hkey⟩ := h f (mem_keyFiles.2 ⟨e, he, hf⟩)
    exact ⟨key, (holds_iff hf).2 hkey⟩
  · intro h f hmem
    obtain ⟨e, he, hf⟩ := mem_keyFiles.1 hmem
    obtain ⟨key, hkey⟩ := h e he (isKeyFile_iff.2 ⟨f, hf⟩)
    exact ⟨key, (holds_iff hf).1 hkey⟩

theorem length_keyFiles (entries : List Entry) :
    (keyFiles entries).length = entries.countP (·.isKeyFile) := by
  rw [keyFiles, List.length_filterMap_eq_countP]
  refine List.countP_congr fun e _ => ?_
  rw [isKeyFile_iff, Option.isSome_iff_exists]

theorem names_keyFiles (entries : List Entry) :
    ((keyFiles entries).map (·.name)).Sublist (entries.map (·.name)) := by
  induction entries with
  | nil => exact .slnil
  | cons e entries ih =>
    rw [keyFiles, List.filterMap_cons, List.map_cons]
    split
    · exact ih.cons _
    · next f hf =>
      obtain ⟨-, -, rfl⟩ := keyFile?_eq_some_iff.1 hf
      exact ih.cons_cons _

/-- Distinct names of files are distinct names of keys. -/
theorem nodup_kids (h : (entries.map (·.name)).Nodup) :
    ((keyFiles entries).map (·.kid)).Nodup := by
  have hnames : (keyFiles entries).map (·.name) =
      ((keyFiles entries).map (·.kid)).map (· ++ ".pem") := by
    rw [List.map_map]
    refine List.map_congr_left fun f hf => ?_
    obtain ⟨e, -, he⟩ := mem_keyFiles.1 hf
    exact (keyFile?_eq_some_iff.1 he).2.1
  -- The names of key files are among those of all entries, and each determines the name of its key.
  have hdistinct := h.sublist (names_keyFiles entries)
  rw [hnames] at hdistinct
  exact hdistinct.of_map _

end Entries

/-! ### Loading key files one after the other -/

section Files

variable {folder : String} {keys keys' : KeyStore} {f : KeyFile} {files : List KeyFile} {e : Error}

theorem addFile_eq (folder : String) (keys : KeyStore) (f : KeyFile) :
    addFile folder keys f =
      match f.key? with
      | some key => .ok (keys.insert f.kid key)
      | none => .error (f.fault folder) := by
  rw [addFile, KeyFile.key?, KeyFile.fault]
  cases htext : f.contents.toText? with
  | none => rfl
  | some text =>
    cases hkey : Pem.keyPair? text <;> simp only [Option.bind_some, KeyStore.insertFile, hkey]

theorem addFiles_cons (folder : String) (keys : KeyStore) (f : KeyFile) (files : List KeyFile) :
    (addFiles folder keys (f :: files)).1 =
      match f.key? with
      | some key => (addFiles folder (keys.insert f.kid key) files).1
      | none => .error (f.fault folder) := by
  rw [addFiles, addFile_eq]
  cases f.key? <;> rfl

/-- Loading goes on after a key file that holds a key pair, with one more binding. -/
theorem addFiles_cons_eq_ok_iff :
    (addFiles folder keys (f :: files)).1 = .ok keys' ↔
      ∃ key, f.key? = some key ∧ (addFiles folder (keys.insert f.kid key) files).1 = .ok keys' := by
  rw [addFiles_cons]
  cases f.key? <;> simp

/-- Key files are loaded exactly if each of them holds a key pair. -/
theorem exists_addFiles_iff :
    (∃ keys', (addFiles folder keys files).1 = .ok keys') ↔
      ∀ f ∈ files, ∃ key, f.key? = some key := by
  induction files generalizing keys with
  | nil => simp [addFiles]
  | cons f files ih =>
    simp only [addFiles_cons_eq_ok_iff, List.forall_mem_cons]
    constructor
    · rintro ⟨keys', key, hkey, hrest⟩
      exact ⟨⟨key, hkey⟩, ih.1 ⟨keys', hrest⟩⟩
    · rintro ⟨⟨key, hkey⟩, hfiles⟩
      obtain ⟨keys', hrest⟩ := ih.2 hfiles
      exact ⟨keys', key, hkey, hrest⟩

/-- Loading fails at the first key file without a key pair. -/
theorem addFiles_eq_error (h : (addFiles folder keys files).1 = .error e) :
    ∃ before f after, files = before ++ f :: after ∧ (∀ g ∈ before, ∃ key, g.key? = some key) ∧
      f.key? = none ∧ e = f.fault folder := by
  induction files generalizing keys with
  | nil => cases h
  | cons f files ih =>
    rw [addFiles_cons] at h
    cases hkey : f.key? with
    | none =>
      rw [hkey] at h
      exact ⟨[], f, files, rfl, by simp, hkey, (Except.error.inj h).symm⟩
    | some key =>
      rw [hkey] at h
      obtain ⟨before, g, after, rfl, hbefore, hg, he⟩ := ih h
      exact ⟨f :: before, g, after, rfl, List.forall_mem_cons.2 ⟨⟨key, hkey⟩, hbefore⟩, hg, he⟩

/-- The name of a key file with its key pair. -/
def KeyFile.binding? (f : KeyFile) : Option (String × Rsa.KeyPair) := f.key?.map (f.kid, ·)

-- Both of the following go along the files with the store so far. The first needs that no name comes
-- twice: only then does every file add a binding, and none replaces one.

/-- Loading binds the key of every key file, under a name that was free before. -/
theorem bindings_addFiles (hdistinct : (files.map (·.kid)).Nodup)
    (hfree : ∀ f ∈ files, f.kid ∉ keys.kids) (h : (addFiles folder keys files).1 = .ok keys') :
    keys'.bindings = (files.filterMap KeyFile.binding?).reverse ++ keys.bindings := by
  induction files generalizing keys with
  | nil =>
    obtain rfl := Except.ok.inj h
    rfl
  | cons f files ih =>
    obtain ⟨key, hkey, hload⟩ := addFiles_cons_eq_ok_iff.1 h
    obtain ⟨hf, hdistinct⟩ := List.nodup_cons.1 hdistinct
    obtain ⟨hfirst, hrest⟩ := List.forall_mem_cons.1 hfree
    have hinsert := KeyStore.bindings_insert hfirst key
    have hfree' : ∀ g ∈ files, g.kid ∉ (keys.insert f.kid key).kids := by
      intro g hg
      rw [KeyStore.kids, hinsert, List.map_cons, List.mem_cons]
      rintro (hsame | hmem)
      · exact hf (List.mem_map.2 ⟨g, hg, hsame⟩)
      · exact hrest g hg hmem
    rw [ih hdistinct hfree' hload, hinsert, List.filterMap_cons, KeyFile.binding?, hkey]
    simp

theorem orderly_addFiles (hkeys : keys.Orderly) (h : (addFiles folder keys files).1 = .ok keys') :
    keys'.Orderly := by
  induction files generalizing keys with
  | nil =>
    obtain rfl := Except.ok.inj h
    exact hkeys
  | cons f files ih =>
    obtain ⟨key, -, hload⟩ := addFiles_cons_eq_ok_iff.1 h
    exact ih (hkeys.insert f.kid key) hload

end Files

/-! ### Loading a listing -/

/-- An error is about an entry: it names the entry, and says why no key pair is read of it. -/
inductive Concerns (folder : String) (e : Entry) : Error → Prop where
  /-- The contents are no text. -/
  | unreadable (h : ∀ text, e.item ≠ .file (Octets.ofText text)) :
    Concerns folder e
      (.keyStore ("reading " ++ pathIn folder e.name ++ ": stream did not contain valid UTF-8"))
  /-- The contents are a text without a key pair. -/
  | unusable (kid detail text : String) (hname : e.name = kid ++ ".pem")
    (htext : e.item = .file (Octets.ofText text)) (h : Pem.keyPair? text = none) :
    Concerns folder e (.keyParse kid detail)

/-- A listing is loaded exactly. -/
structure Exact (folder : String) (entries : List Entry) : Prop where
  /-- There is a store if every key file holds a key pair, and only then. -/
  loaded_iff : (∃ keys, load folder entries = .ok keys) ↔
    ∀ e ∈ entries, e.isKeyFile = true → ∃ key, e.Holds key
  /-- A name is bound to the key pair in the key file of this name. -/
  bound_iff : ∀ keys, load folder entries = .ok keys → ∀ kid key,
    keys.lookup kid = .ok key ↔
      ∃ e ∈ entries, e.isKeyFile = true ∧ e.name = kid ++ ".pem" ∧ e.Holds key
  /-- No other name is bound. -/
  unbound_iff : ∀ keys, load folder entries = .ok keys → ∀ kid,
    keys.lookup kid = .error (.keyNotFound kid) ↔
      ∀ e ∈ entries, e.isKeyFile = true → e.name ≠ kid ++ ".pem"
  /-- No two key files share a name. -/
  size_eq : ∀ keys, load folder entries = .ok keys → keys.size = entries.countP (·.isKeyFile)
  /-- An error is about the first key file without a key pair. -/
  first_fault : ∀ err, load folder entries = .error err →
    ∃ before e after, entries = before ++ e :: after ∧
      (∀ e' ∈ before, e'.isKeyFile = true → ∃ key, e'.Holds key) ∧
      e.isKeyFile = true ∧ (∀ key, ¬ e.Holds key) ∧ Concerns folder e err
  /-- Nothing else in the folder counts. -/
  passed_over : ∀ entries' : List Entry,
    entries'.filter (·.isKeyFile) = entries.filter (·.isKeyFile) →
      load folder entries' = load folder entries
  /-- In any other order the listing is loaded too, and the store shows the same. -/
  any_order : ∀ entries', entries'.Perm entries → ∀ keys, load folder entries = .ok keys →
    ∃ keys', load folder entries' = .ok keys' ∧ keys'.Agrees keys

section Load

variable {folder : String} {entries entries' : List Entry} {keys keys' : KeyStore} {e : Entry}
  {f : KeyFile} {kid : String} {key : Rsa.KeyPair} {err : Error}

theorem exists_load_iff :
    (∃ keys, load folder entries = .ok keys) ↔
      ∀ e ∈ entries, e.isKeyFile = true → ∃ key, e.Holds key :=
  exists_addFiles_iff.trans forall_mem_keyFiles_iff

theorem bindings_load (hdistinct : (entries.map (·.name)).Nodup)
    (h : load folder entries = .ok keys) :
    keys.bindings = ((keyFiles entries).filterMap KeyFile.binding?).reverse := by
  have hbindings := bindings_addFiles (nodup_kids hdistinct) (fun _ _ => List.not_mem_nil) h
  rw [hbindings]
  exact List.append_nil _

theorem lookup_load_iff (hdistinct : (entries.map (·.name)).Nodup)
    (h : load folder entries = .ok keys) :
    keys.lookup kid = .ok key ↔
      ∃ e ∈ entries, e.isKeyFile = true ∧ e.name = kid ++ ".pem" ∧ e.Holds key := by
  have horderly : keys.Orderly := orderly_addFiles KeyStore.orderly_empty h
  rw [KeyStore.lookup_eq_ok_iff, horderly.get?_eq_some_iff, bindings_load hdistinct h,
    List.mem_reverse, List.mem_filterMap]
  constructor
  · rintro ⟨f, hf, hbinding⟩
    obtain ⟨e, he, hfile⟩ := mem_keyFiles.1 hf
    obtain ⟨key', hkey, hpair⟩ := Option.map_eq_some_iff.1 hbinding
    obtain ⟨rfl, rfl⟩ := Prod.mk.inj hpair
    obtain ⟨-, hname, rfl⟩ := keyFile?_eq_some_iff.1 hfile
    exact ⟨_, he, isKeyFile_iff.2 ⟨f, hfile⟩, hname, (holds_iff hfile).2 hkey⟩
  · rintro ⟨e, he, hkeyFile, hname, hkey⟩
    obtain ⟨f, hfile⟩ := isKeyFile_iff.1 hkeyFile
    refine ⟨f, mem_keyFiles.2 ⟨e, he, hfile⟩, ?_⟩
    have hholds := (holds_iff hfile).1 hkey
    obtain ⟨-, hname', rfl⟩ := keyFile?_eq_some_iff.1 hfile
    obtain rfl : f.kid = kid := (String.append_left_inj _).1 (hname'.symm.trans hname)
    rw [KeyFile.binding?, hholds, Option.map_some]

theorem size_load (hdistinct : (entries.map (·.name)).Nodup) (h : load folder entries = .ok keys) :
    keys.size = entries.countP (·.isKeyFile) := by
  have hall : ∀ f ∈ keyFiles entries, f.binding?.isSome = true := by
    intro f hf
    obtain ⟨key, hkey⟩ := exists_addFiles_iff.1 ⟨keys, h⟩ f hf
    rw [KeyFile.binding?, hkey]
    rfl
  rw [KeyStore.size, bindings_load hdistinct h, List.length_reverse,
    List.length_filterMap_eq_countP, List.countP_eq_length.2 hall, length_keyFiles]

theorem concerns_fault (hfile : e.keyFile? = some f) (hkey : f.key? = none) :
    Concerns folder e (f.fault folder) := by
  obtain ⟨-, hname, rfl⟩ := keyFile?_eq_some_iff.1 hfile
  rw [KeyFile.fault]
  cases htext : f.contents.toText? with
  | none =>
    refine .unreadable fun text hitem => ?_
    rw [Item.file.inj hitem, Octets.toText?_ofText] at htext
    cases htext
  | some text =>
    rw [KeyFile.key?, htext, Option.bind_some] at hkey
    exact .unusable f.kid _ text hname (by rw [Octets.toText?_eq_some_iff.1 htext]) hkey

theorem first_fault_load (h : load folder entries = .error err) :
    ∃ before e after, entries = before ++ e :: after ∧
      (∀ e' ∈ before, e'.isKeyFile = true → ∃ key, e'.Holds key) ∧
      e.isKeyFile = true ∧ (∀ key, ¬ e.Holds key) ∧ Concerns folder e err := by
  obtain ⟨files, f, rest, hfiles, hbefore, hkey, rfl⟩ := addFiles_eq_error h
  obtain ⟨front, back, rfl, rfl, hback⟩ := List.filterMap_eq_append_iff.1 hfiles
  -- Between the last key file in front and the one at fault only other entries stand.
  obtain ⟨others, e, after, rfl, hothers, hfile, -⟩ := List.filterMap_eq_cons_iff.1 hback
  refine ⟨front ++ others, e, after, (List.append_assoc _ _ _).symm, fun e' he' hkeyFile => ?_,
    isKeyFile_iff.2 ⟨f, hfile⟩, fun key hholds => ?_, concerns_fault hfile hkey⟩
  · rcases List.mem_append.1 he' with he' | he'
    · exact forall_mem_keyFiles_iff.1 hbefore e' he' hkeyFile
    · obtain ⟨g, hg⟩ := isKeyFile_iff.1 hkeyFile
      rw [hothers e' he'] at hg
      cases hg
  · rw [holds_iff hfile, hkey] at hholds
    cases hholds

theorem keyFiles_filter (entries : List Entry) :
    keyFiles (entries.filter (·.isKeyFile)) = keyFiles entries := by
  rw [keyFiles, keyFiles, List.filterMap_filter]
  refine List.filterMap_congr fun e _ => ?_
  split
  · rfl
  · next hother =>
    refine Eq.symm (Option.eq_none_iff_forall_ne_some.2 fun f hf => hother ?_)
    exact isKeyFile_iff.2 ⟨f, hf⟩

theorem agrees_load_of_perm (hdistinct : (entries.map (·.name)).Nodup)
    (hperm : entries'.Perm entries) (h : load folder entries = .ok keys) :
    ∃ keys', load folder entries' = .ok keys' ∧ keys'.Agrees keys := by
  -- The bindings depend on the order, but what is found and how many there are does not.
  have hdistinct' : (entries'.map (·.name)).Nodup := (hperm.map _).nodup_iff.2 hdistinct
  have hholds := exists_load_iff.1 ⟨keys, h⟩
  obtain ⟨keys', h'⟩ := exists_load_iff.2 fun e he => hholds e (hperm.mem_iff.1 he)
  refine ⟨keys', h', fun kid => KeyStore.lookup_congr fun key => ?_, ?_⟩
  · simp only [lookup_load_iff hdistinct' h', lookup_load_iff hdistinct h, hperm.mem_iff]
  · rw [size_load hdistinct' h', size_load hdistinct h, hperm.countP_eq]

/-- Key folders are loaded exactly. There is a store if every key file holds a key pair; it binds the
names of these files, each to the key pair in its own file, and nothing else in the folder counts.
The order of the listing does not show. Where a key file holds none, the error is about it. -/
theorem exact_load (hdistinct : (entries.map (·.name)).Nodup) : Exact folder entries where
  loaded_iff := exists_load_iff
  bound_iff _ h _ _ := lookup_load_iff hdistinct h
  unbound_iff keys h kid := by
    have hholds := exists_load_iff.1 ⟨keys, h⟩
    rw [KeyStore.lookup_eq_error_iff]
    constructor
    · intro hnone e he hkeyFile hname
      obtain ⟨key, hkey⟩ := hholds e he hkeyFile
      exact hnone key ((lookup_load_iff hdistinct h).2 ⟨e, he, hkeyFile, hname, hkey⟩)
    · intro hnone key hfound
      obtain ⟨e, he, hkeyFile, hname, -⟩ := (lookup_load_iff hdistinct h).1 hfound
      exact hnone e he hkeyFile hname
  size_eq _ h := size_load hdistinct h
  first_fault _ h := first_fault_load h
  passed_over entries' h := by
    rw [load, loadTraced, ← keyFiles_filter entries', h, keyFiles_filter]
    rfl
  any_order _ hperm _ h := agrees_load_of_perm hdistinct hperm h

/-- One key file between entries that do not count. -/
def sampleEntries : List Entry :=
  [⟨"README.txt", .file (Octets.ofText "not a key")⟩, ⟨"old.pem", .folder⟩,
    ⟨"key.pem", .file (Octets.ofText Keyring.sampleFile)⟩, ⟨".pem", .file []⟩,
    ⟨"x.PEM", .file [0xFF]⟩]

theorem exact_load_sampleEntries :
    (sampleEntries.map (·.name)).Nodup ∧ Exact "keys" sampleEntries ∧
      ∃ keys, load "keys" sampleEntries = .ok keys ∧ keys.size = 1 ∧
        keys.lookup "key" = .ok Rsa.sampleKey := by
  have hdistinct : (sampleEntries.map (·.name)).Nodup := by decide
  have hexact : Exact "keys" sampleEntries := exact_load hdistinct
  have hholds : (⟨"key.pem", .file (Octets.ofText Keyring.sampleFile)⟩ : Entry).Holds Rsa.sampleKey :=
    ⟨_, rfl, Keyring.keyPair?_sampleFile⟩
  have hall : ∀ e ∈ sampleEntries, e.isKeyFile = true → e.Holds Rsa.sampleKey := by
    simp only [sampleEntries, List.forall_mem_cons]
    exact ⟨fun h => absurd h (by decide), fun h => absurd h (by decide), fun _ => hholds,
      fun h => absurd h (by decide), fun h => absurd h (by decide), by simp⟩
  obtain ⟨keys, hkeys⟩ := hexact.loaded_iff.2 fun e he hfile => ⟨_, hall e he hfile⟩
  refine ⟨hdistinct, hexact, keys, hkeys, (hexact.size_eq keys hkeys).trans ?_, ?_⟩
  · simp only [sampleEntries, List.countP_cons]
    rfl
  · exact (hexact.bound_iff keys hkeys _ _).2 ⟨_, by simp [sampleEntries], by rfl, rfl, hholds⟩

end Load

end AccountService.KeyFolder
