import AccountService.Auth.KeyStore
import AccountService.Proofs.Find
import Mathlib.Data.List.Induction

/-!
# A key store and its history

What is done to a store is a list of changes. A name is bound to the key pair of the last key file
that was put under it and held one, unless the name was unbound after that; a store shows exactly
these bindings.

## Main definitions

* `Auth.Change`, `Auth.KeyStore.replay` — what is done to a store, and the store that comes of it
* `Auth.Bound` — what a name is bound to after changes
* `Auth.KeyStore.Shows` — a store shows the bindings that changes leave

## Main statements

* `Auth.bound_append_iff` — what a last change does to the bindings
* `Auth.KeyStore.shows_replay` — a store shows what its history left
-/

namespace AccountService.Auth

/-! ### Changes and the bindings that they leave -/

/-- What is done to a store. -/
inductive Change where
  /-- The key pair of a key file is bound to a name, if the file holds one. -/
  | insert (kid file : String)
  /-- A name is unbound. -/
  | remove (kid : String)
  deriving DecidableEq, Repr

/-- A change decides what a name is bound to: it unbinds the name, or it puts a key file under it
that holds a key pair. -/
def Change.Decides (kid : String) : Change → Prop
  | .insert kid' file => kid' = kid ∧ Pem.keyPair? file ≠ none
  | .remove kid' => kid' = kid

/-- What a name is bound to after changes: a key file with this key pair was put under it, and no
change since then decided otherwise. -/
def Bound (changes : List Change) (kid : String) (key : Rsa.KeyPair) : Prop :=
  ∃ before file after, changes = before ++ .insert kid file :: after ∧
    Pem.keyPair? file = some key ∧ ∀ c ∈ after, ¬ c.Decides kid

section Bound

variable {changes : List Change} {c : Change} {kid : String} {key : Rsa.KeyPair}

theorem not_bound_nil : ¬ Bound [] kid key := by
  rintro ⟨before, file, after, h, -⟩
  cases before <;> cases h

/-- After a last change a name is bound to what this change binds it to, or, if the change does not
decide on the name, to what it was bound to before. -/
theorem bound_append_iff :
    Bound (changes ++ [c]) kid key ↔
      (∃ file, c = .insert kid file ∧ Pem.keyPair? file = some key) ∨
        ¬ c.Decides kid ∧ Bound changes kid key := by
  constructor
  · rintro ⟨before, file, after, hsplit, hkey, hafter⟩
    -- The file was put there by the last change exactly if nothing comes after it.
    rcases List.eq_nil_or_concat' after with rfl | ⟨after', d, rfl⟩
    · obtain ⟨-, hc⟩ := List.append_inj' hsplit rfl
      exact .inl ⟨file, (List.cons.inj hc).1, hkey⟩
    · have hsplit' : changes ++ [c] = (before ++ .insert kid file :: after') ++ [d] := by
        rw [hsplit, List.append_assoc, List.cons_append]
      obtain ⟨rfl, hd⟩ := List.append_inj' hsplit' rfl
      obtain rfl := (List.cons.inj hd).1
      refine .inr ⟨hafter c (by simp), before, file, after', rfl, hkey, fun d hd => ?_⟩
      exact hafter d (by simp [hd])
  · rintro (⟨file, rfl, hkey⟩ | ⟨hnot, before, file, after, rfl, hkey, hafter⟩)
    · exact ⟨changes, file, [], rfl, hkey, by simp⟩
    · refine ⟨before, file, after ++ [c], by simp, hkey, fun d hd => ?_⟩
      rcases List.mem_append.1 hd with hd | hd
      · exact hafter d hd
      · rwa [List.mem_singleton.1 hd]

end Bound

/-! ### What a store shows -/

namespace KeyStore

/-- A store after a change. A change that fails leaves it as it is. -/
def change (s : KeyStore) : Change → KeyStore
  | .insert kid file =>
    match s.insertFile kid file with
    | .ok keys => keys
    | .error _ => s
  | .remove kid => s.remove kid

/-- The store that comes of changes. -/
def replay (changes : List Change) : KeyStore := changes.foldl change empty

theorem replay_append (changes : List Change) (c : Change) :
    replay (changes ++ [c]) = (replay changes).change c := by
  rw [replay, List.foldl_append]
  rfl

theorem change_insert (s : KeyStore) (kid file : String) :
    s.change (.insert kid file) = ((Pem.keyPair? file).map (s.insert kid)).getD s := by
  rw [change, insertFile]
  cases Pem.keyPair? file <;> rfl

theorem get?_change {s : KeyStore} {c : Change} {kid : String} {key : Rsa.KeyPair} :
    (s.change c).get? kid = some key ↔
      (∃ file, c = .insert kid file ∧ Pem.keyPair? file = some key) ∨
        ¬ c.Decides kid ∧ s.get? kid = some key := by
  cases c with
  | insert kid' file =>
    rw [change_insert]
    cases hfile : Pem.keyPair? file with
    | none => simp [Change.Decides, hfile]
    | some key' =>
      rw [Option.map_some, Option.getD_some, get?_insert]
      by_cases h : kid = kid'
      · simp [Change.Decides, hfile, h]
      · simp [Change.Decides, hfile, h, Ne.symm h]
  | remove kid' =>
    rw [change, get?_remove]
    by_cases h : kid = kid'
    · simp [Change.Decides, h]
    · simp [Change.Decides, h, Ne.symm h]

theorem get?_replay {changes : List Change} {kid : String} {key : Rsa.KeyPair} :
    (replay changes).get? kid = some key ↔ Bound changes kid key := by
  induction changes using List.reverseRecOn with
  | nil => exact iff_of_false (fun h => by cases h) not_bound_nil
  | append_singleton changes c ih => rw [replay_append, get?_change, ih, bound_append_iff]

/-- The names that are bound. -/
def kids (s : KeyStore) : List String := s.bindings.map (·.1)

/-- No name is bound twice. -/
def Orderly (s : KeyStore) : Prop := s.kids.Nodup

theorem orderly_empty : empty.Orderly := List.nodup_nil

theorem Orderly.remove {s : KeyStore} (h : s.Orderly) (kid : String) : (s.remove kid).Orderly :=
  List.Nodup.sublist (List.filter_sublist.map _) h

theorem Orderly.insert {s : KeyStore} (h : s.Orderly) (kid : String) (key : Rsa.KeyPair) :
    (s.insert kid key).Orderly := by
  refine List.nodup_cons.2 ⟨fun hmem => ?_, h.remove kid⟩
  obtain ⟨b, hb, hkid⟩ := List.mem_map.1 hmem
  exact absurd hkid (by simpa using (List.mem_filter.1 hb).2)

theorem Orderly.change {s : KeyStore} (h : s.Orderly) (c : Change) : (s.change c).Orderly := by
  cases c with
  | insert kid file =>
    rw [change_insert]
    cases Pem.keyPair? file with
    | none => exact h
    | some key => exact h.insert kid key
  | remove kid => exact h.remove kid

theorem orderly_replay (changes : List Change) : (replay changes).Orderly := by
  induction changes using List.reverseRecOn with
  | nil => exact orderly_empty
  | append_singleton changes c ih =>
    rw [replay_append]
    exact ih.change c

theorem mem_kids_iff {s : KeyStore} {kid : String} :
    kid ∈ s.kids ↔ ∃ key, s.get? kid = some key := by
  rw [get?, kids]
  constructor
  · intro h
    obtain ⟨b, hb, rfl⟩ := List.mem_map.1 h
    obtain ⟨b', hb'⟩ := Option.isSome_iff_exists.1
      (List.find?_isSome (p := (·.1 == b.1)).2 ⟨b, hb, by simp⟩)
    exact ⟨b'.2, by rw [hb', Option.map_some]⟩
  · rintro ⟨key, h⟩
    obtain ⟨b, hb, -⟩ := Option.map_eq_some_iff.1 h
    exact List.mem_map.2 ⟨b, List.mem_of_find?_eq_some hb, by simpa using List.find?_some hb⟩

theorem Orderly.get?_eq_some_iff {s : KeyStore} (h : s.Orderly) {kid : String} {key : Rsa.KeyPair} :
    s.get? kid = some key ↔ (kid, key) ∈ s.bindings := by
  rw [get?, Option.map_eq_some_iff]
  constructor
  · rintro ⟨b, hb, rfl⟩
    obtain ⟨hmem, rfl⟩ := (find?_key_iff h).1 hb
    exact hmem
  · intro hmem
    exact ⟨_, (find?_key_iff h).2 ⟨hmem, rfl⟩, rfl⟩

/-- A name that is free is bound without a change to what else is bound. -/
theorem bindings_insert {s : KeyStore} {kid : String} (h : kid ∉ s.kids) (key : Rsa.KeyPair) :
    (s.insert kid key).bindings = (kid, key) :: s.bindings := by
  rw [insert, remove, List.filter_eq_self.2]
  intro b hb
  exact bne_iff_ne.2 fun hkid => h (List.mem_map.2 ⟨b, hb, hkid⟩)

theorem lookup_eq_error_iff {s : KeyStore} {kid : String} :
    s.lookup kid = .error (.keyNotFound kid) ↔ ∀ key, s.lookup kid ≠ .ok key := by
  rw [lookup]
  cases s.get? kid <;> simp

/-- Stores that find the same key pairs under a name show the same under it. -/
theorem lookup_congr {s t : KeyStore} {kid : String}
    (h : ∀ key, s.lookup kid = .ok key ↔ t.lookup kid = .ok key) : s.lookup kid = t.lookup kid := by
  simp only [lookup_eq_ok_iff] at h
  rw [lookup, lookup, Option.ext h]

/-- Two stores show the same: the same key pair under every name, and as many of them. -/
def Agrees (s t : KeyStore) : Prop := (∀ kid, s.lookup kid = t.lookup kid) ∧ s.size = t.size

/-- A store shows the bindings that changes leave. -/
structure Shows (s : KeyStore) (changes : List Change) : Prop where
  /-- A bound name is found with the key pair it is bound to. -/
  lookup_bound : ∀ kid key, s.lookup kid = .ok key ↔ Bound changes kid key
  /-- A name that is not bound is not found. -/
  lookup_unbound : ∀ kid, s.lookup kid = .error (.keyNotFound kid) ↔ ∀ key, ¬ Bound changes kid key
  contains_iff : ∀ kid, s.contains kid = true ↔ ∃ key, Bound changes kid key
  /-- The size is the number of bound names. -/
  size_eq : ∃ kids : List String, kids.Nodup ∧ (∀ kid, kid ∈ kids ↔ ∃ key, Bound changes kid key) ∧
    s.size = kids.length

/-- A store shows what its history left. -/
theorem shows_replay (changes : List Change) : (replay changes).Shows changes where
  lookup_bound kid key := by rw [lookup_eq_ok_iff, get?_replay]
  lookup_unbound kid := by
    rw [lookup_eq_error_iff]
    simp only [ne_eq, lookup_eq_ok_iff, get?_replay]
  contains_iff kid := by
    simp only [← get?_replay, contains, Option.isSome_iff_exists]
  size_eq := by
    refine ⟨(replay changes).kids, orderly_replay changes, fun kid => ?_, ?_⟩
    · simp only [mem_kids_iff, get?_replay]
    · rw [size, kids, List.length_map]

end KeyStore

end AccountService.Auth
