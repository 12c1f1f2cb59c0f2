import AccountService.Pipeline.Meters
import AccountService.Proofs.Shared
import Mathlib.Data.List.Count
import Mathlib.Data.Set.Card
import Mathlib.Logic.Function.Basic

/-!
# Families of handles on metrics

Handles that were made from one another are a family, and count in the same metrics. A tally says
what is to be read through them: what was counted through any handle of the family, and which
guards that were taken from one are still held, whatever has become of the handle.

## Main definitions

* `Meters.Event`, `Meters.run` — what is done to handles and guards
* `Meters.Tally` — which family a handle is of, what was counted in it, and which guards are held
* `Meters.Tracks` — meters hold what a tally says

## Main statements

* `Meters.Tally.reading_setGuard` — what a guard that is taken or dropped changes
* `Meters.Tracks.reading_note` — an event is of no account for families that it is none of
* `Meters.Tracks.step`, `Meters.tracks_run` — one event, and any events
* `Meters.metered_run` — what is read through handles
-/

namespace AccountService

/-- What is counted by calls. -/
inductive Counter where
  | request
  | error
  | panic
  deriving DecidableEq, Repr

namespace Counter

/-- One more of it. -/
def add : Counter → Metrics → Metrics
  | request => Metrics.addRequest
  | error => Metrics.addError
  | panic => Metrics.addPanic

/-- How many there were of it. -/
def read (x : Metrics) : Counter → Nat
  | request => x.requests
  | error => x.errors
  | panic => x.panics

end Counter

namespace Meters

/-! ### Events and their tally -/

/-- What is done to handles and guards. -/
inductive Event where
  /-- New metrics are made, under a handle. -/
  | create (handle : String)
  | call (handle : String) (counter : Counter)
  /-- A handle is made from another. -/
  | share (handle further : String)
  | drop (handle : String)
  /-- A guard is taken from a handle; the one that had its name is dropped then. -/
  | enter (handle guard : String)
  | leave (guard : String)
  deriving DecidableEq, Repr

/-- Meters after an event. -/
def step (m : Meters) : Event → Meters
  | .create handle => m.create handle
  | .call handle counter => m.count handle counter.add
  | .share handle further => m.share handle further
  | .drop handle => m.drop handle
  | .enter handle guard => m.enter handle guard
  | .leave guard => m.leave guard

/-- The meters that come of events. -/
def run (events : List Event) : Meters := events.foldl step empty

/-- What it makes of the metrics of a family that a guard is dropped. -/
def released (owner : Option Nat) (f : Nat) (x : Metrics) : Metrics :=
  if owner = some f then x.leave else x

/-- Which family a handle is of, what was counted in each, and of which family the guards are that
are held. Families go by numbers, in the order in which their metrics were made. -/
structure Tally where
  families : Nat
  familyOf : String → Option Nat
  /-- What was counted in a family, through whatever handle of it. -/
  calls : Nat → List Counter
  /-- The family of the handle that a guard was taken from, as long as it is held. -/
  guardOf : String → Option Nat

namespace Tally

/-- At first there is neither a handle nor a guard. -/
def initial : Tally := ⟨0, fun _ => none, fun _ => [], fun _ => none⟩

/-- Notes the family of a handle. -/
def setFamily (l : Tally) (handle : String) (owner : Option Nat) : Tally :=
  { l with familyOf := Function.update l.familyOf handle owner }

/-- Notes the family of the guard that a name has. -/
def setGuard (l : Tally) (guard : String) (owner : Option Nat) : Tally :=
  { l with guardOf := Function.update l.guardOf guard owner }

/-- Notes an event. One that needs a handle which is not there is none. -/
def note (l : Tally) : Event → Tally
  | .create handle => { l with families := l.families + 1 }.setFamily handle (some l.families)
  | .call handle counter =>
    match l.familyOf handle with
    | some f => { l with calls := Function.update l.calls f (l.calls f ++ [counter]) }
    | none => l
  | .share handle further =>
    match l.familyOf handle with
    | some f => l.setFamily further (some f)
    | none => l
  | .drop handle => l.setFamily handle none
  | .enter handle guard =>
    match l.familyOf handle with
    | some f => l.setGuard guard (some f)
    | none => l
  | .leave guard => l.setGuard guard none

/-- The tally of events. -/
def of (events : List Event) : Tally := events.foldl note initial

/-- The guards of a family that are held. -/
def held (l : Tally) (f : Nat) : Set String := {g | l.guardOf g = some f}

/-- What is to be read through any handle of a family. -/
noncomputable def reading (l : Tally) (f : Nat) : Metrics :=
  ⟨(l.calls f).count .request, (l.calls f).count .error, (l.calls f).count .panic, (l.held f).ncard⟩

/-- An event is one of a family: it counts in it, or takes or drops a guard of it. -/
def Concerns (l : Tally) (f : Nat) : Event → Prop
  | .call handle _ => l.familyOf handle = some f
  | .enter handle guard => l.familyOf handle = some f ∨ l.guardOf guard = some f
  | .leave guard => l.guardOf guard = some f
  | .create _ | .share .. | .drop _ => False

variable {l : Tally} {f : Nat}

theorem held_setGuard (guard : String) (owner : Option Nat) : (l.setGuard guard owner).held f =
    if owner = some f then insert guard (l.held f) else l.held f \ {guard} := by
  ext g
  simp only [held, setGuard, Set.mem_ofPred_eq]
  by_cases hg : g = guard
  · rw [hg, Function.update_self]
    split <;> simp [*]
  · rw [Function.update_of_ne hg]
    split <;> simp [hg]

/-- Whether a guard is taken or dropped, and whether in place of another or not: the family that it
is of has one more, and the family that the name had a guard of has one less. -/
theorem ncard_held_setGuard (guard : String) (owner : Option Nat)
    (hfinite : (l.held f).Finite) : (((l.setGuard guard owner).held f).ncard : Int) =
      (l.held f).ncard + (if owner = some f then 1 else 0) -
        if l.guardOf guard = some f then 1 else 0 := by
  rw [held_setGuard]
  by_cases howner : owner = some f <;> by_cases hguard : l.guardOf guard = some f
  · have hmem : guard ∈ l.held f := hguard
    rw [if_pos howner, if_pos howner, if_pos hguard, Set.insert_eq_of_mem hmem,
      Int.add_sub_cancel]
  · have hmem : guard ∉ l.held f := hguard
    rw [if_pos howner, if_pos howner, if_neg hguard, Set.ncard_insert_of_notMem hmem hfinite,
      Nat.cast_succ, Int.sub_zero]
  · have hmem : guard ∈ l.held f := hguard
    have hcard := Set.ncard_sdiff_singleton_add_one hmem hfinite
    rw [if_neg howner, if_neg howner, if_pos hguard, ← hcard]
    omega
  · have hmem : guard ∉ l.held f := hguard
    rw [if_neg howner, if_neg howner, if_neg hguard, Set.sdiff_singleton_eq_self hmem,
      Int.sub_zero, Int.add_zero]

theorem reading_setGuard (guard : String) (owner : Option Nat) (hfinite : (l.held f).Finite) :
    (l.setGuard guard owner).reading f =
      released (l.guardOf guard) f
        (if owner = some f then (l.reading f).enter else l.reading f) := by
  have hgauge := ncard_held_setGuard guard owner hfinite
  rw [reading, hgauge, released]
  split <;> split <;> simp [Metrics.enter, Metrics.leave, reading, setGuard]

/-- One more call is counted. -/
theorem reading_call {counter : Counter} :
    ({ l with calls := Function.update l.calls f (l.calls f ++ [counter]) }).reading f =
      counter.add (l.reading f) := by
  cases counter <;>
    simp [reading, held, Counter.add, Metrics.addRequest, Metrics.addError, Metrics.addPanic]

end Tally

/-! ### What the operations change -/

variable {m : Meters} {handle guard : String} {i : Nat}

theorem leave_of_none (h : m.guard? guard = none) : m.leave guard = m := by rw [leave, h]

theorem leave_of_some (h : m.guard? guard = some i) : m.leave guard =
    ⟨m.handles.updateCell i Metrics.leave, m.guards.filter (·.1 != guard)⟩ := by rw [leave, h]

theorem cells_leave (f : Nat) : (m.leave guard).handles.cells[f]? =
    (m.handles.cells[f]?).map (released (m.guard? guard) f) := by
  cases h : m.guard? guard with
  | none =>
    have hid : released none f = id := rfl
    rw [leave_of_none h, hid, Option.map_id, id]
  | some i =>
    have hreleased : released (some i) f = fun x => if i = f then x.leave else x := by
      funext x
      simp only [released, Option.some.injEq]
    rw [leave_of_some h, Shared.getElem?_updateCell, hreleased]

theorem cell?_leave : (m.leave guard).handles.cell? handle = m.handles.cell? handle := by
  rw [leave]
  split <;> rfl

theorem guard?_leave (g : String) :
    (m.leave guard).guard? g = if g = guard then none else m.guard? g := by
  cases h : m.guard? guard with
  | none =>
    rw [leave_of_none h]
    split
    · next heq => rw [heq, h]
    · rfl
  | some i =>
    rw [leave_of_some h, guard?, Auth.KeyStore.find?_filter_ne]
    split <;> rfl

theorem cells_enter (h : m.handles.cell? handle = some i) (f : Nat) :
    (m.enter handle guard).handles.cells[f]? = (m.handles.cells[f]?).map fun x =>
      released (m.guard? guard) f (if i = f then x.enter else x) := by
  rw [enter, h]
  show (leave _ guard).handles.cells[f]? = _
  rw [cells_leave, Shared.getElem?_updateCell, Option.map_map]
  rfl

theorem cell?_enter {other : String} :
    (m.enter handle guard).handles.cell? other = m.handles.cell? other := by
  rw [enter]
  split
  · rfl
  · exact cell?_leave

theorem guard?_enter (h : m.handles.cell? handle = some i) (g : String) :
    (m.enter handle guard).guard? g = if g = guard then some i else m.guard? g := by
  rw [enter, h, guard?, List.find?_cons]
  split
  · next heq => rw [if_pos (of_decide_eq_true heq).symm]; rfl
  · next heq =>
    have hne : g ≠ guard := Ne.symm (of_decide_eq_false heq)
    let entered : Meters := { m with handles := m.handles.updateCell i Metrics.enter }
    have hleave : (entered.leave guard).guard? g = if g = guard then none else m.guard? g :=
      guard?_leave g
    rw [if_neg hne] at hleave ⊢
    exact hleave

/-! ### Meters hold what their tally says -/

/-- Meters hold what a tally says. -/
structure Tracks (m : Meters) (l : Tally) : Prop where
  named : ∀ handle, m.handles.cell? handle = l.familyOf handle
  guards : ∀ guard, m.guard? guard = l.guardOf guard
  cells : ∀ f, m.handles.cells[f]? = if f < l.families then some (l.reading f) else none
  handle_lt : ∀ handle f, l.familyOf handle = some f → f < l.families
  guard_lt : ∀ guard f, l.guardOf guard = some f → f < l.families
  /-- Nothing was counted in a family that is still to be made. -/
  calls : ∀ f, l.families ≤ f → l.calls f = []

variable {l : Tally} {f : Nat} {m' : Meters} {name : String} {owner : Option Nat}

theorem tracks_empty : Tracks empty .initial where
  named := fun _ => rfl
  guards := fun _ => rfl
  cells := fun _ => rfl
  handle_lt := nofun
  guard_lt := nofun
  calls := fun _ _ => rfl

/-- Through a handle one reads the metrics of its family. -/
theorem Tracks.read_eq (h : Tracks m l) (hf : l.familyOf handle = some f) :
    m.read handle = l.reading f := by
  rw [read, Shared.get?_eq ((h.named handle).trans hf), h.cells f,
    if_pos (h.handle_lt handle f hf), Option.getD_some]

theorem Tracks.length_cells (h : Tracks m l) : m.handles.cells.length = l.families := by
  apply Nat.le_antisymm
  · by_contra hlt
    have hsome := List.getElem?_eq_getElem (Nat.lt_of_not_le hlt)
    rw [h.cells, if_neg (Nat.lt_irrefl _)] at hsome
    cases hsome
  · by_contra hlt
    have hnone := h.cells m.handles.cells.length
    rw [List.getElem?_eq_none (Nat.le_refl _), if_pos (Nat.lt_of_not_le hlt)] at hnone
    cases hnone

theorem Tracks.finite_held (h : Tracks m l) (f : Nat) : (l.held f).Finite := by
  refine (m.guards.map (·.1)).finite_toSet.subset fun g hg => ?_
  obtain ⟨⟨name, i⟩, hfind, -⟩ := Option.map_eq_some_iff.1 ((h.guards g).trans hg)
  have hname := List.find?_some hfind
  exact List.mem_map.2 ⟨_, List.mem_of_find?_eq_some hfind, eq_of_beq hname⟩

/-- A new family has counted nothing. -/
theorem Tracks.reading_new (h : Tracks m l) : l.reading l.families = .zero := by
  have hnone : l.held l.families = ∅ := Set.eq_empty_of_forall_notMem fun g hg =>
    Nat.lt_irrefl _ (h.guard_lt g _ hg)
  simp [Tally.reading, h.calls _ (Nat.le_refl _), hnone, Metrics.zero]

/-- New metrics are a family of their own. -/
theorem Tracks.grow (h : Tracks m l) :
    Tracks { m with handles := { m.handles with cells := m.handles.cells ++ [.zero] } }
      { l with families := l.families + 1 } where
  named := h.named
  guards := h.guards
  cells := fun f => by
    rw [List.getElem?_append, h.length_cells, h.cells f]
    obtain hlt | rfl | hgt := Nat.lt_trichotomy f l.families
    · rw [if_pos hlt, if_pos hlt, if_pos (Nat.lt_succ_of_lt hlt)]
      rfl
    · have hzero := h.reading_new
      rw [if_neg (Nat.lt_irrefl _), if_pos (Nat.lt_succ_self _), Nat.sub_self]
      exact congrArg some hzero.symm
    · rw [if_neg (Nat.lt_asymm hgt), if_neg (Nat.not_lt_of_le hgt), List.getElem?_eq_none]
      exact Nat.sub_pos_of_lt hgt
  handle_lt := fun handle f hf => Nat.lt_succ_of_lt (h.handle_lt handle f hf)
  guard_lt := fun g f hg => Nat.lt_succ_of_lt (h.guard_lt g f hg)
  calls := fun f hf => h.calls f (Nat.le_of_succ_le hf)

/-- What a handle counts in changes nothing that was counted. -/
theorem Tracks.rebind (h : Tracks m l)
    (hnames : ∀ other, m'.handles.cell? other =
      if other = name then owner else m.handles.cell? other)
    (hcells : m'.handles.cells = m.handles.cells) (hguards : m'.guards = m.guards)
    (howner : ∀ f, owner = some f → f < l.families) :
    Tracks m' (l.setFamily name owner) where
  named := fun other => by
    rw [hnames, h.named]
    exact (Function.update_apply ..).symm
  guards := fun g => by
    rw [guard?, hguards]
    exact h.guards g
  cells := fun f => hcells ▸ h.cells f
  handle_lt := fun other f hf => by
    have hfamily : (if other = name then owner else l.familyOf other) = some f :=
      (Function.update_apply ..).symm.trans hf
    split at hfamily
    · exact howner f hfamily
    · exact h.handle_lt other f hfamily
  guard_lt := h.guard_lt
  calls := h.calls

/-- A guard that is taken or dropped shows in the gauge of its family, and so does the one that had
its name. -/
theorem Tracks.reguard (h : Tracks m l)
    (hnames : ∀ handle, m'.handles.cell? handle = m.handles.cell? handle)
    (hguards : ∀ g, m'.guard? g = if g = guard then owner else m.guard? g)
    (hcells : ∀ f, m'.handles.cells[f]? = (m.handles.cells[f]?).map fun x =>
      released (m.guard? guard) f (if owner = some f then x.enter else x))
    (howner : ∀ f, owner = some f → f < l.families) :
    Tracks m' (l.setGuard guard owner) where
  named := fun handle => (hnames handle).trans (h.named handle)
  guards := fun g => by
    rw [hguards, h.guards]
    exact (Function.update_apply ..).symm
  cells := fun f => by
    have hreading := Tally.reading_setGuard guard owner (h.finite_held f)
    rw [hcells, h.cells f, hreading, h.guards]
    exact apply_ite (Option.map _) _ _ _
  handle_lt := h.handle_lt
  guard_lt := fun g f hg => by
    have hfamily : (if g = guard then owner else l.guardOf g) = some f :=
      (Function.update_apply ..).symm.trans hg
    split at hfamily
    · exact howner f hfamily
    · exact h.guard_lt g f hfamily
  calls := h.calls

theorem Tracks.call (h : Tracks m l) (hf : l.familyOf handle = some f) (counter : Counter) :
    Tracks (m.count handle counter.add)
      { l with calls := Function.update l.calls f (l.calls f ++ [counter]) } where
  named := fun other => Shared.cell?_update.trans (h.named other)
  guards := h.guards
  cells := fun f' => by
    have hcells : (m.count handle counter.add).handles.cells =
        m.handles.cells.modify f counter.add := Shared.cells_update ((h.named handle).trans hf)
    rw [hcells, List.getElem?_modify, h.cells f']
    by_cases heq : f = f'
    · subst heq
      have hlt := h.handle_lt handle f hf
      rw [Tally.reading_call, if_pos hlt, if_pos hlt]
      simp
    · have hsame : Tally.reading
          { l with calls := Function.update l.calls f (l.calls f ++ [counter]) } f' =
            l.reading f' := by
        simp [Tally.reading, Tally.held, Function.update_of_ne (Ne.symm heq)]
      rw [hsame]
      simp [heq]
  handle_lt := h.handle_lt
  guard_lt := h.guard_lt
  calls := fun f' hf' => by
    have hne : f' ≠ f := Nat.ne_of_gt (Nat.lt_of_lt_of_le (h.handle_lt handle f hf) hf')
    exact (Function.update_of_ne hne _ _).trans (h.calls f' hf')

/-! ### Events -/

theorem Tracks.create (h : Tracks m l) (handle : String) :
    Tracks (m.create handle) (l.note (.create handle)) := by
  have hnew (f : Nat) (hf : some l.families = some f) : f < l.families + 1 :=
    Option.some.inj hf ▸ Nat.lt_succ_self _
  have hnames (other : String) : (m.create handle).handles.cell? other =
      if other = handle then some l.families else m.handles.cell? other :=
    h.length_cells ▸ Shared.cell?_fresh
  exact h.grow.rebind hnames rfl rfl hnew

theorem Tracks.share (h : Tracks m l) (handle further : String) :
    Tracks (m.share handle further) (l.note (.share handle further)) := by
  cases hf : l.familyOf handle with
  | none =>
    have hsame : m.share handle further = m := by rw [Meters.share, Shared.share, h.named, hf]
    rwa [hsame, Tally.note, hf]
  | some f =>
    have hkept (f' : Nat) (hf' : some f = some f') : f' < l.families :=
      h.handle_lt handle f' (hf.trans hf')
    simp only [Tally.note, hf]
    exact h.rebind (fun _ => Shared.cell?_share ((h.named handle).trans hf)) Shared.cells_share
      rfl hkept

theorem Tracks.count (h : Tracks m l) (handle : String) (counter : Counter) :
    Tracks (m.count handle counter.add) (l.note (.call handle counter)) := by
  cases hf : l.familyOf handle with
  | none =>
    have hsame : m.count handle counter.add = m := by
      rw [Meters.count, Shared.update, h.named, hf]
    rwa [hsame, Tally.note, hf]
  | some f =>
    simp only [Tally.note, hf]
    exact h.call hf counter

theorem Tracks.enter (h : Tracks m l) (handle guard : String) :
    Tracks (m.enter handle guard) (l.note (.enter handle guard)) := by
  cases hf : l.familyOf handle with
  | none =>
    have hsame : m.enter handle guard = m := by rw [Meters.enter, h.named, hf]
    rwa [hsame, Tally.note, hf]
  | some f =>
    have hcell : m.handles.cell? handle = some f := (h.named handle).trans hf
    have hkept (f' : Nat) (hf' : some f = some f') : f' < l.families :=
      h.handle_lt handle f' (hf.trans hf')
    simp only [Tally.note, hf]
    refine h.reguard (fun _ => cell?_enter) (guard?_enter hcell) (fun f' => ?_) hkept
    simp only [Option.some.injEq]
    exact cells_enter hcell f'

/-- One event keeps meters and their tally together. -/
theorem Tracks.step (h : Tracks m l) (e : Event) : Tracks (m.step e) (l.note e) := by
  cases e with
  | create handle => exact h.create handle
  | call handle counter => exact h.count handle counter
  | share handle further => exact h.share handle further
  | drop handle => exact h.rebind (fun _ => Shared.cell?_drop) rfl rfl nofun
  | enter handle guard => exact h.enter handle guard
  | leave guard => exact h.reguard (fun _ => cell?_leave) guard?_leave cells_leave nofun

/-- Meters hold what the tally of their events says. -/
theorem tracks_run (events : List Event) : Tracks (run events) (.of events) := by
  induction events using List.reverseRecOn with
  | nil => exact tracks_empty
  | append_singleton events e ih =>
    rw [run, Tally.of, List.foldl_concat, List.foldl_concat]
    exact ih.step e

/-- An event changes nothing that is read of a family that it is none of. -/
theorem Tracks.reading_note (h : Tracks m l) {e : Event} (hnot : ¬ l.Concerns f e) :
    (l.note e).reading f = l.reading f := by
  have hguard (guard : String) (owner : Option Nat) (hguard : l.guardOf guard ≠ some f)
      (howner : owner ≠ some f) :
      (l.setGuard guard owner).reading f = l.reading f := by
    rw [Tally.reading_setGuard _ _ (h.finite_held f), if_neg howner, released, if_neg hguard]
  cases e with
  | create | drop => rfl
  | share handle further =>
    simp only [Tally.note]
    split <;> rfl
  | call handle counter =>
    simp only [Tally.note]
    split
    · next f' hf' =>
      have hne : f ≠ f' := fun heq => hnot (heq ▸ hf')
      simp [Tally.reading, Tally.held, Function.update_of_ne hne]
    · rfl
  | enter handle guard =>
    obtain ⟨hhandle, hheld⟩ := not_or.1 hnot
    simp only [Tally.note]
    split
    · next f' hf' => exact hguard guard (some f') hheld fun heq => hhandle (hf'.trans heq)
    · rfl
  | leave guard => exact hguard guard none hnot nofun

/-- Guards that are dropped, in whatever order, are held no longer, and the others are. -/
theorem Tally.note_leaves (order : List String) (l : Tally) :
    ((order.map Event.leave).foldl Tally.note l).familyOf = l.familyOf ∧
      ∀ f, ((order.map Event.leave).foldl Tally.note l).held f = l.held f \ {g | g ∈ order} := by
  induction order generalizing l with
  | nil => exact ⟨rfl, fun f => by simp⟩
  | cons g order ih =>
    obtain ⟨hfamily, hheld⟩ := ih (l.note (.leave g))
    refine ⟨hfamily, fun f => (hheld f).trans ?_⟩
    have hone : (l.note (.leave g)).held f = l.held f \ {g} :=
      (held_setGuard g none).trans (if_neg nofun)
    ext other
    simp only [hone, Set.mem_sdiff, Set.mem_singleton_iff, Set.mem_ofPred_eq, List.mem_cons, not_or,
      and_assoc]

/-- In any run over handles and guards, all handles that were made from one another read the same:
of every counter, how often it was called through any of them, and in the gauge how many guards
that were taken from them are held. So it comes back to zero once these are dropped, in whatever
order, and an event of one family changes nothing that is read through the handles of another. -/
theorem metered_run (events : List Event) :
    (∀ handle other f, (Tally.of events).familyOf handle = some f →
      (Tally.of events).familyOf other = some f →
        (run events).read handle = (run events).read other) ∧
    (∀ handle f, (Tally.of events).familyOf handle = some f →
      (∀ counter : Counter, counter.read ((run events).read handle) =
        ((Tally.of events).calls f).count counter) ∧
      ((Tally.of events).held f).Finite ∧
      ((run events).read handle).inFlight = ((Tally.of events).held f).ncard ∧
      0 ≤ ((run events).read handle).inFlight) ∧
    (∀ handle f (order : List String), (Tally.of events).familyOf handle = some f →
      (∀ guard ∈ (Tally.of events).held f, guard ∈ order) →
        ((run (events ++ order.map .leave)).read handle).inFlight = 0) ∧
    (∀ e f handle other, ¬ (Tally.of events).Concerns f e →
      (Tally.of events).familyOf handle = some f →
        (Tally.of (events ++ [e])).familyOf other = some f →
          (run (events ++ [e])).read other = (run events).read handle) := by
  have h := tracks_run events
  refine ⟨fun handle other f hf hother => ?_, fun handle f hf => ?_,
    fun handle f order hf hall => ?_, fun e f handle other hnot hf hother => ?_⟩
  · rw [h.read_eq hf, h.read_eq hother]
  · have hgauge : ((run events).read handle).inFlight = ((Tally.of events).held f).ncard := by
      rw [h.read_eq hf, Tally.reading]
    refine ⟨fun counter => ?_, h.finite_held f, hgauge, hgauge ▸ Int.natCast_nonneg _⟩
    rw [h.read_eq hf]
    cases counter <;> rfl
  · have hleaves := tracks_run (events ++ order.map .leave)
    obtain ⟨hfamily, hheld⟩ := Tally.note_leaves order (.of events)
    rw [Tally.of, List.foldl_append] at hleaves
    have hnone : ((order.map Event.leave).foldl Tally.note (.of events)).held f = ∅ :=
      (hheld f).trans (Set.sdiff_eq_empty.2 hall)
    have hread := hleaves.read_eq (hfamily ▸ hf)
    rw [hread]
    show (((order.map Event.leave).foldl Tally.note (.of events)).held f).ncard = (0 : Int)
    rw [hnone, Set.ncard_empty, Nat.cast_zero]
  · have hnote : Tally.of (events ++ [e]) = (Tally.of events).note e := by
      rw [Tally.of, List.foldl_concat, Tally.of]
    rw [(tracks_run (events ++ [e])).read_eq hother, hnote, h.reading_note hnot, h.read_eq hf]

-- A guard outlives the handle that it was taken from until another takes its place.
example : (run [.create "m", .share "m" "n", .enter "m" "g", .drop "m", .call "n" .request,
    .enter "n" "g", .enter "n" "h"]).read "n" = ⟨1, 0, 0, 2⟩ := by decide

end Meters

end AccountService
