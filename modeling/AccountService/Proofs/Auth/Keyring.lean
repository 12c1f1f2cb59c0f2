import AccountService.Auth.Keyring
import AccountService.Proofs.Auth.KeyStore
import AccountService.Proofs.Auth.Lookup
import AccountService.Proofs.Shared
import Mathlib.Logic.Function.Basic

/-!
# Handles that share a store

Handles that were made from one another stand for one store, and engines keep to the store that
they were made over. A ledger says what is to be seen through them: which store a handle stands
for, and what was done to it, in which order, whatever handle it was done through.

## Main definitions

* `Auth.Finder` — a handle of a store, or a pointer to one
* `Auth.Keyring.Event`, `Auth.Keyring.run` — what is done to a keyring
* `Auth.Ledger` — which store a handle stands for, and what was done to it
* `Auth.Keyring.Tracks` — a keyring holds what a ledger says

## Main statements

* `Auth.Keyring.Tracks.step` — one event keeps a keyring and its ledger together
* `Auth.Keyring.exists_tracks` — and so do any events
* `Auth.Keyring.Tracks.run_built` — an engine stays over the store that it was made over
-/

namespace AccountService

namespace Auth

/-! ### Handles, events and the ledger -/

/-- What keys are looked up in: a handle of a store, or a pointer to something of the kind. -/
inductive Finder where
  | handle (name : String)
  | pointer (target : Finder)

namespace Finder

/-- The handle at the end of the pointers. -/
def target : Finder → String
  | handle name => name
  | pointer f => f.target

/-- The key that is found under a name. A pointer passes the question on. -/
def lookup (k : Keyring) : Finder → String → Except Error Rsa.KeyPair
  | handle name, kid => (k.store name).lookup kid
  | pointer f, kid => f.lookup k kid

theorem lookup_eq (k : Keyring) (f : Finder) (kid : String) :
    f.lookup k kid = (k.store f.target).lookup kid := by
  induction f with
  | handle name => rfl
  | pointer f ih => exact ih

end Finder

namespace Keyring

/-- What is done to a keyring. -/
inductive Event where
  /-- A key file is put under a name, through a handle of the store. -/
  | insert (handle kid file : String)
  /-- A name is unbound, through a handle of the store. -/
  | remove (handle kid : String)
  /-- A handle is made from another. -/
  | share (handle further : String)
  /-- An engine is made. -/
  | engine (name : String) (finder : Finder) (kid : String) (algorithm : Algorithm)
    (issuer : Option String) (leeway : Nat)

/-- An event makes an engine of this name. -/
def Event.Makes (name : String) : Event → Prop
  | .engine name' .. => name' = name
  | _ => False

/-- A keyring after an event. -/
def step (k : Keyring) : Event → Keyring
  | .insert handle kid file => (k.insertFile handle kid file).1
  | .remove handle kid => (k.remove handle kid).1
  | .share handle further => k.share handle further
  | .engine name finder kid algorithm issuer leeway =>
    (k.makeEngine name finder.target kid algorithm issuer leeway).1

/-- The keyring that comes of events. -/
def run (events : List Event) : Keyring := events.foldl step empty

end Keyring

open Keyring (Event)

/-- Which store a handle stands for, and what was done to each store. A store goes by the name of
the handle that it was made for. -/
structure Ledger where
  storeOf : String → String
  /-- What was done to a store, through whatever handle of it. -/
  changes : String → List Change

namespace Ledger

/-- At first every handle stands for a store of its own, and nothing was done to any. -/
def initial : Ledger := ⟨id, fun _ => []⟩

/-- What was done to the store of a handle. -/
def history (l : Ledger) (handle : String) : List Change := l.changes (l.storeOf handle)

/-- Notes a change of the store of a handle. -/
def add (l : Ledger) (handle : String) (c : Change) : Ledger :=
  { l with changes := Function.update l.changes (l.storeOf handle) (l.history handle ++ [c]) }

/-- Notes an event. -/
def note (l : Ledger) : Event → Ledger
  | .insert handle kid file => l.add handle (.insert kid file)
  | .remove handle kid => l.add handle (.remove kid)
  | .share handle further =>
    { l with storeOf := Function.update l.storeOf further (l.storeOf handle) }
  | .engine .. => l

/-- The ledger of events. -/
def of (events : List Event) : Ledger := events.foldl note initial

end Ledger

/-! ### A keyring holds what its ledger says -/

namespace Keyring

variable {k : Keyring} {l : Ledger} {founders : List String} {handle : String}

/-- A keyring holds what a ledger says; `founders` are the names that the stores go by, in the
order of the stores. -/
structure Tracks (k : Keyring) (l : Ledger) (founders : List String) : Prop where
  nodup : founders.Nodup
  cells : k.stores.cells = founders.map fun s => KeyStore.replay (l.changes s)
  /-- A handle that was used refers to the store that it stands for. -/
  named : ∀ handle i, k.stores.cell? handle = some i → founders[i]? = some (l.storeOf handle)
  /-- A handle that was not used yet stands for a store of its own that is still to be made. -/
  unnamed : ∀ handle, k.stores.cell? handle = none → l.storeOf handle = handle ∧ handle ∉ founders
  /-- Nothing was done to a store that is still to be made. -/
  untouched : ∀ s, s ∉ founders → l.changes s = []

theorem tracks_empty : Tracks empty .initial [] where
  nodup := List.nodup_nil
  cells := rfl
  named := fun _ _ h => by cases h
  unnamed := fun _ _ => ⟨rfl, List.not_mem_nil⟩
  untouched := fun _ _ => rfl

/-- Through a handle one sees what was done to the store that it stands for. -/
theorem Tracks.store_eq (h : Tracks k l founders) (handle : String) :
    k.store handle = KeyStore.replay (l.history handle) := by
  rw [store]
  cases hcell : k.stores.cell? handle with
  | some i =>
    rw [Shared.get?_eq hcell, h.cells, List.getElem?_map, h.named handle i hcell]
    rfl
  | none =>
    obtain ⟨hown, hnew⟩ := h.unnamed handle hcell
    rw [Shared.get?, hcell, Ledger.history, hown, h.untouched handle hnew]
    rfl

/-- A handle that is used for the first time gets its store. -/
theorem Tracks.withStore (h : Tracks k l founders) (handle : String) :
    ∃ more, Tracks (k.withStore handle) l (founders ++ more) := by
  cases hcell : k.stores.cell? handle with
  | some i =>
    have hsame : k.withStore handle = k := by rw [Keyring.withStore, Shared.ensure_eq_self hcell]
    exact ⟨[], by rwa [hsame, List.append_nil]⟩
  | none =>
    obtain ⟨hown, hnew⟩ := h.unnamed handle hcell
    have hlength : k.stores.cells.length = founders.length := by rw [h.cells, List.length_map]
    have hcells : (k.withStore handle).stores.cells = k.stores.cells ++ [.empty] :=
      Shared.cells_ensure hcell
    have hnames (other : String) : (k.withStore handle).stores.cell? other =
        if other = handle then some k.stores.cells.length else k.stores.cell? other :=
      Shared.cell?_ensure hcell
    refine ⟨[handle], ?_, ?_, fun other i hother => ?_, fun other hother => ?_, fun s hs => ?_⟩
    · exact h.nodup.append (List.nodup_singleton _) (by simpa using hnew)
    · rw [hcells, h.cells, List.map_append, List.map_singleton, h.untouched handle hnew]
      rfl
    · rw [hnames] at hother
      split at hother
      · next heq =>
        obtain rfl := Option.some.inj hother
        rw [hlength, List.getElem?_concat_length, heq, hown]
      · have hi := h.named other i hother
        rw [List.getElem?_append_left (List.getElem?_eq_some_iff.1 hi).1, hi]
    · rw [hnames] at hother
      split at hother
      · cases hother
      · next hne =>
        obtain ⟨hself, hnot⟩ := h.unnamed other hother
        exact ⟨hself, by simpa [hne] using hnot⟩
    · exact h.untouched s fun hmem => hs (List.mem_append_left _ hmem)

/-- A keyring after a change of the store of a handle. -/
def changed (k : Keyring) (handle : String) (c : Change) : Keyring :=
  { k.withStore handle with
    stores := (k.withStore handle).stores.update handle fun keys => keys.change c }

/-- A key file that holds no key pair changes nothing, and one that does binds it. -/
theorem insertFile_fst (k : Keyring) (handle kid file : String) :
    (k.insertFile handle kid file).1 = k.changed handle (.insert kid file) := by
  rw [insertFile, changed]
  have hstore (keys : KeyStore) (h : (k.withStore handle).stores.get? handle = some keys) :
      (k.withStore handle).store handle = keys := by
    rw [store, h, Option.getD_some]
  cases hfile : ((k.withStore handle).store handle).insertFile kid file with
  | ok keys =>
    dsimp only
    congr 1
    refine Shared.update_congr fun a ha => ?_
    rw [hstore a ha] at hfile
    rw [KeyStore.change, hfile]
  | error err =>
    dsimp only
    have hsame : (k.withStore handle).stores.update handle
        (fun keys => keys.change (.insert kid file)) = (k.withStore handle).stores := by
      refine Shared.update_eq_self fun a ha => ?_
      rw [hstore a ha] at hfile
      rw [KeyStore.change, hfile]
    rw [hsame]

theorem modify_map_update {founders : List String} {g : String → List Change} {i : Nat}
    {s : String} {c : Change} (hnodup : founders.Nodup) (hi : founders[i]? = some s) :
    (founders.map fun s => KeyStore.replay (g s)).modify i (fun keys => keys.change c) =
      founders.map fun s' => KeyStore.replay (Function.update g s (g s ++ [c]) s') := by
  apply List.ext_getElem?
  intro j
  rw [List.getElem?_modify, List.getElem?_map, List.getElem?_map]
  cases hj : founders[j]? with
  | none => rfl
  | some s' =>
    by_cases hij : i = j
    · subst hij
      obtain rfl := Option.some.inj (hi.symm.trans hj)
      simp [KeyStore.replay_append]
    · have hne : s' ≠ s := by
        rintro rfl
        have hlt := (List.getElem?_eq_some_iff.1 hi).1
        exact hij ((List.getElem?_inj hlt hnodup).1 (hi.trans hj.symm))
      simp [hij, Function.update_of_ne hne]

/-- A change through a handle is a change of the store that it stands for, and of no other. -/
theorem Tracks.changed (h : Tracks k l founders) (handle : String) (c : Change) :
    ∃ more, Tracks (k.changed handle c) (l.add handle c) (founders ++ more) := by
  obtain ⟨more, hstore⟩ := h.withStore handle
  obtain ⟨i, hcell⟩ := Shared.exists_cell?_ensure k.stores handle KeyStore.empty
  have hi := hstore.named handle i hcell
  refine ⟨more, hstore.nodup, ?_, fun other j hother => ?_, fun other hother => ?_, fun s hs => ?_⟩
  · have hcells : (k.changed handle c).stores.cells =
        (k.withStore handle).stores.cells.modify i fun keys => keys.change c :=
      Shared.cells_update hcell
    rw [hcells, hstore.cells]
    exact modify_map_update hstore.nodup hi
  · exact hstore.named other j (Shared.cell?_update.symm.trans hother)
  · exact hstore.unnamed other (Shared.cell?_update.symm.trans hother)
  · have hne : s ≠ l.storeOf handle := by
      rintro rfl
      exact hs (List.mem_of_getElem? hi)
    exact (Function.update_of_ne hne _ _).trans (hstore.untouched s hs)

/-- A handle that is made from another stands for the same store. -/
theorem Tracks.share (h : Tracks k l founders) (handle further : String) :
    ∃ more, Tracks (k.share handle further) (l.note (.share handle further))
      (founders ++ more) := by
  obtain ⟨more, hstore⟩ := h.withStore handle
  obtain ⟨i, hcell⟩ := Shared.exists_cell?_ensure k.stores handle KeyStore.empty
  have hnames (other : String) : (k.share handle further).stores.cell? other =
      if other = further then some i else (k.withStore handle).stores.cell? other :=
    Shared.cell?_share hcell
  refine ⟨more, hstore.nodup, ?_, fun other j hother => ?_, fun other hother => ?_,
    hstore.untouched⟩
  · exact Shared.cells_share.trans hstore.cells
  · rw [hnames] at hother
    split at hother
    · next heq =>
      obtain rfl := Option.some.inj hother
      rw [heq, hstore.named handle i hcell]
      exact congrArg some (Function.update_self further (l.storeOf handle) l.storeOf).symm
    · next hne =>
      rw [hstore.named other j hother]
      exact congrArg some (Function.update_of_ne hne _ _).symm
  · rw [hnames] at hother
    split at hother
    · cases hother
    · next hne =>
      obtain ⟨hown, hnew⟩ := hstore.unnamed other hother
      exact ⟨(Function.update_of_ne hne _ _).trans hown, hnew⟩

/-- Engines come and go without a change of any store. -/
theorem Tracks.of_stores_eq {k' : Keyring} (h : Tracks k l founders)
    (hstores : k'.stores = k.stores) : Tracks k' l founders where
  nodup := h.nodup
  cells := hstores ▸ h.cells
  named := hstores ▸ h.named
  unnamed := hstores ▸ h.unnamed
  untouched := h.untouched

theorem stores_makeEngine (k : Keyring) (name handle kid : String) (algorithm : Algorithm)
    (issuer : Option String) (leeway : Nat) :
    (k.makeEngine name handle kid algorithm issuer leeway).1.stores =
      (k.withStore handle).stores := by
  rw [makeEngine]
  split <;> rfl

/-- One event keeps a keyring and its ledger together. -/
theorem Tracks.step (h : Tracks k l founders) (event : Event) :
    ∃ more, Tracks (k.step event) (l.note event) (founders ++ more) := by
  cases event with
  | insert handle kid file =>
    rw [Keyring.step, insertFile_fst]
    exact h.changed handle (.insert kid file)
  | remove handle kid => exact h.changed handle (.remove kid)
  | share handle further => exact h.share handle further
  | engine name finder kid algorithm issuer leeway =>
    obtain ⟨more, hstore⟩ := h.withStore finder.target
    exact ⟨more, hstore.of_stores_eq (stores_makeEngine ..)⟩

/-- Any events keep a keyring and its ledger together. -/
theorem Tracks.run (h : Tracks k l founders) (events : List Event) :
    ∃ more, Tracks (events.foldl Keyring.step k) (events.foldl Ledger.note l)
      (founders ++ more) := by
  induction events generalizing k l founders with
  | nil => exact ⟨[], by rwa [List.append_nil]⟩
  | cons event events ih =>
    obtain ⟨more, hstep⟩ := h.step event
    obtain ⟨more', hrun⟩ := ih hstep
    exact ⟨more ++ more', by rwa [← List.append_assoc]⟩

theorem exists_tracks (events : List Event) :
    ∃ founders, Tracks (run events) (.of events) founders := by
  obtain ⟨founders, h⟩ := tracks_empty.run events
  exact ⟨founders, h⟩

/-! ### Engines keep to their stores -/

/-- An engine of this name is in the keyring, over the store of this name. -/
def Built (k : Keyring) (founders : List String) (name : String) (e : Engine) (s : String) : Prop :=
  ∃ i, k.engines.find? (·.1 == name) = some (name, e, i) ∧ founders[i]? = some s

/-- An engine finds what was done to its store. -/
theorem Tracks.engine?_eq (h : Tracks k l founders) {name s : String} {e : Engine}
    (hbuilt : Built k founders name e s) :
    k.engine? name = some (e, KeyStore.replay (l.changes s)) := by
  obtain ⟨i, hengine, hi⟩ := hbuilt
  simp only [engine?, hengine, h.cells, List.getElem?_map, hi, Option.map_some, Option.getD_some]

theorem find?_engines_makeEngine {k : Keyring} {name other handle kid : String}
    {algorithm : Algorithm} {issuer : Option String} {leeway : Nat} (h : other ≠ name) :
    (k.makeEngine name handle kid algorithm issuer leeway).1.engines.find? (·.1 == other) =
      k.engines.find? (·.1 == other) := by
  rw [makeEngine]
  split
  · have hne : (name == other) = false := by simpa using Ne.symm h
    rw [List.find?_cons]
    simp only [hne]
    rw [KeyStore.find?_filter_ne, if_neg h]
    rfl
  · rfl
  · rfl

theorem Built.step {name s : String} {e : Engine} {event : Event}
    (h : Built k founders name e s) (hmakes : ¬ event.Makes name) (more : List String) :
    Built (k.step event) (founders ++ more) name e s := by
  obtain ⟨i, hengine, hi⟩ := h
  have hi' : (founders ++ more)[i]? = some s := by
    rw [List.getElem?_append_left (List.getElem?_eq_some_iff.1 hi).1, hi]
  refine ⟨i, ?_, hi'⟩
  cases event with
  | insert handle kid file => rwa [Keyring.step, insertFile_fst]
  | remove handle kid => exact hengine
  | share handle further => exact hengine
  | engine name' finder kid algorithm issuer leeway =>
    rw [Keyring.step, find?_engines_makeEngine (Ne.symm hmakes)]
    exact hengine

/-- An engine that was made is over the store that its handle stood for, and it stays so. -/
theorem Tracks.run_built (h : Tracks k l founders) {name s : String} {e : Engine}
    (hbuilt : Built k founders name e s) {events : List Event}
    (hmakes : ∀ event ∈ events, ¬ event.Makes name) :
    (events.foldl Keyring.step k).engine? name =
      some (e, KeyStore.replay ((events.foldl Ledger.note l).changes s)) := by
  induction events generalizing k l founders with
  | nil => exact h.engine?_eq hbuilt
  | cons event events ih =>
    obtain ⟨more, hstep⟩ := h.step event
    exact ih hstep (hbuilt.step (hmakes event (List.mem_cons_self ..)) more) fun event' hevent' =>
      hmakes event' (List.mem_cons_of_mem _ hevent')

theorem Tracks.built_makeEngine (h : Tracks k l founders) {name handle kid : String}
    {algorithm : Algorithm} {issuer : Option String} {leeway : Nat} {e : Engine}
    (hmade : (k.makeEngine name handle kid algorithm issuer leeway).2 = .ok e) :
    ∃ more, Tracks (k.makeEngine name handle kid algorithm issuer leeway).1 l (founders ++ more) ∧
      Built (k.makeEngine name handle kid algorithm issuer leeway).1 (founders ++ more) name e
        (l.storeOf handle) := by
  obtain ⟨more, hstore⟩ := h.withStore handle
  obtain ⟨i, hcell⟩ := Shared.exists_cell?_ensure k.stores handle KeyStore.empty
  refine ⟨more, hstore.of_stores_eq (stores_makeEngine ..), i, ?_, hstore.named handle i hcell⟩
  have hcell' : (k.withStore handle).stores.cell? handle = some i := hcell
  rw [makeEngine] at hmade ⊢
  simp only [hcell'] at hmade ⊢
  cases hmake : Engine.make kid ((k.withStore handle).store handle) algorithm issuer leeway with
  | error err =>
    rw [hmake] at hmade
    cases hmade
  | ok e' =>
    rw [hmake] at hmade
    obtain rfl := Except.ok.inj hmade
    simp

end Keyring

end Auth

end AccountService
